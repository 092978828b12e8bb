/-
  What the program prints.

  1. **Reference** (`rendered`, `Options.Accepted`).  Accepted options have settings that can be run
     on.  What is to be printed are then the messages of the files below the path, one file after
     another.

  2. **The crux** (`Feed.messagesAhead`).  At any time the program still has some messages ahead:
     those of the stream that it holds, then those of the files still to be opened.  Connecting
     changes nothing of them (`connect_keepsAhead`), whether it takes up the next file, skips one or
     fails to walk.  A read takes the first one of the stream away, or finds that the stream has
     none (`heldMessages_read`).

  3. **The loops** (`printStream_prints`, `printAll_prints`).  So the inner loop prints what the
     stream still has, and the outer one all that is ahead.  No error on the way ends either of them
     early: they are all recoverable, but for the one that says that nothing is left.

  Last, a whole run: when it is accepted, what it prints, and how far a failure of one file reaches.
-/
import Mathlib
import RecordFeed.Printout
import RecordFeed.Proofs.Files.Requests
import RecordFeed.Proofs.Printing.Contents
import RecordFeed.Proofs.Sessions.Recovery

namespace RecordFeed

/-! ## Reference

  The options are merged with what the settings file says, and validated once more.  A run that
  gets this far prints, whatever its files are. -/

/-- The parts of a message as they are printed: each on a line of its own, and in multipart mode a
    blank line behind them. -/
def rendered (multipart : Bool) (parts : List Bytes) : Bytes :=
  (parts.flatMap fun part => part ++ [newline]) ++ if multipart then [newline] else []

/-- The bytes printed for a message are those of its payloads; of the arena behind them nothing is
    seen. -/
theorem Message.printed_eq (multipart : Bool) (m : Message) :
    m.printed multipart = rendered multipart m.payloads := by
  rw [printed, rendered, List.flatMap_def]

/-- The options are accepted, and these are the settings to run on: the settings file, if one is
    given, can be read, and the settings in it fit together; and so do they with what the options
    say. -/
inductive Options.Accepted (t : FileTree) (o : Options) : Settings → Prop where
  | defaults (hconfig : o.config = none) (hmerged : (o.override {}).validate = .ok ()) :
      Accepted t o (o.override {})
  | document {path : Bytes} {text : String} {written : Settings} (hconfig : o.config = some path)
      (htext : t.text path = .ok text) (hread : Settings.read text = .ok written)
      (hvalid : written.validate = .ok ()) (hmerged : (o.override written).validate = .ok ()) :
      Accepted t o (o.override written)

/-- Options are accepted when they come to settings that can be run on.  The first of the two
    validations is inside of reading the file, the second one is that of the constructor. -/
theorem Options.accepted_iff {t : FileTree} {o : Options} {settings : Settings} :
    o.Accepted t settings ↔ o.settings t = .ok settings ∧ settings.validate = .ok () := by
  constructor
  · rintro (⟨hconfig, hmerged⟩ | ⟨hconfig, htext, hread, hvalid, hmerged⟩)
    · exact ⟨by rw [Options.settings, hconfig], hmerged⟩
    · refine ⟨?_, hmerged⟩
      rw [Options.settings, hconfig]
      simp only [htext, Settings.ofDocument, hread, hvalid]
      rfl
  · rintro ⟨hsettings, hvalid⟩
    rw [Options.settings] at hsettings
    cases hconfig : o.config with
    | none =>
      rw [hconfig] at hsettings
      obtain rfl := Except.ok.inj hsettings
      exact .defaults hconfig hvalid
    | some path =>
      simp only [hconfig] at hsettings
      cases htext : t.text path with
      | error error => simp [htext] at hsettings
      | ok text =>
        simp only [htext, Settings.ofDocument] at hsettings
        cases hread : Settings.read text with
        | error fault => simp [hread, Except.map] at hsettings
        | ok written =>
          simp only [hread] at hsettings
          cases hwritten : written.validate with
          | error fault => simp [hwritten, Except.map] at hsettings
          | ok =>
            simp only [hwritten, Except.map] at hsettings
            obtain rfl := Except.ok.inj hsettings
            exact .document hconfig htext hread hwritten hvalid

/-! ## Events that print nothing

  The output is read off the events of a run.  Two of the three calls that the loops make add
  nothing to it: reading and connecting.  Settling a message has no events at all. -/

/-- An event of opening a stream: the request, what the source of streams reports of it, and the
    answer. -/
def Event.IsOpening : Event → Prop
  | .asked | .obtained => True
  | .log (.walked _ _) | .log (.openedFile _) | .log (.connected _ _) => True
  | .log .exhausted | .log (.openFailed _) => True
  | _ => False

/-- Scanning prints nothing. -/
theorem printed?_of_scanning {events : List Event} (h : ∀ e ∈ events, e.IsScanning) :
    events.filterMap Event.printed? = [] := by
  rw [List.filterMap_eq_nil_iff]
  intro e he
  have hscanning := h e he
  cases e <;> first | rfl | exact hscanning.elim

namespace Feed

/-- Reading prints nothing. -/
theorem read_prints_nothing {ω φ η : Type} [ByteSource ω η] (w : ω) (f : Feed ω φ η) :
    (f.read w).events.filterMap Event.printed? = [] := by
  cases hlink : f.link with
  | idle | closed =>
    rw [read_not_connected (by simp [hlink, Link.isConnected])]
    rfl
  | connected scanner =>
    -- all events before the answer are those of scanning
    have hgather := printed?_of_scanning
      (gather_leaves w f.settings.multipart scanner { arena := f.arena }).scanning
    rw [read_connected hlink]
    generalize gather w f.settings.multipart scanner { arena := f.arena } = gathered at hgather ⊢
    obtain ⟨answer, ⟨later, assembly⟩, events⟩ := gathered
    cases answer with
    | complete => exact hgather
    | drained | failed error =>
      simp only [settle, List.filterMap_append, hgather]
      rfl

/-- Opening files does nothing else: no event of a connection is one of scanning or of printing. -/
theorem connect_opening (t : FileTree) (f : FileFeed) :
    ∀ e ∈ (f.connect t).events, e.IsOpening := by
  -- the source of streams reports the walk, and then the file that it tries
  have hopen (streams : FileStreams) (paths : List Bytes) :
      ∀ e ∈ (streams.openFirst t paths).events, e.IsOpening := by
    cases paths with
    | nil => simp [FileStreams.openFirst]
    | cons path rest =>
      rw [FileStreams.openFirst]
      cases OpenFile.ofPath t path <;> simp [Event.IsOpening]
  have hasked : ∀ e ∈ (f.factory.nextStream t).events, e.IsOpening := by
    rw [FileStreams.nextStream]
    cases f.factory.pending with
    | some paths => exact hopen f.factory paths
    | none =>
      cases t.files f.factory.root with
      | error error => simp
      | ok paths => exact List.forall_mem_cons.mpr ⟨trivial, hopen f.factory paths⟩
  cases hlink : f.link with
  | connected scanner => simp [connect_of_connected hlink]
  | closed => simp [connect_of_closed hlink]
  | idle =>
    simp only [connect, hlink, StreamFactory.nextStream]
    generalize f.factory.nextStream t = asked at hasked ⊢
    obtain ⟨answer, factory, events⟩ := asked
    have hbefore : ∀ e ∈ Event.asked :: events, e.IsOpening :=
      List.forall_mem_cons.mpr ⟨trivial, hasked⟩
    cases answer <;>
      exact List.forall_mem_append.mpr ⟨hbefore, by simp [Event.IsOpening]⟩

theorem connect_prints_nothing (t : FileTree) (f : FileFeed) :
    (f.connect t).events.filterMap Event.printed? = [] := by
  rw [List.filterMap_eq_nil_iff]
  intro e he
  have hopening := connect_opening t f e he
  cases e <;> first | rfl | exact hopening.elim

end Feed

/-! ## What is ahead

  The loops have no list of what is to be printed.  There is a list all the same: what the
  stream that is held still has, followed by what is in the files not opened yet.  A call
  either leaves this list as it is or takes its first message off. -/

variable {t : FileTree}

namespace FileStreams

/-- The files still to be opened.  Before the walk, they are those that the walk will find. -/
def toOpen (t : FileTree) (f : FileStreams) : List Bytes :=
  match f.pending with
  | some paths => paths
  | none => t.filesBelow f.root

/-- What asking for the next stream makes of the messages of the files still to be opened: it takes
    those of one file away and gives the file, or leaves them all to be asked for again. -/
inductive Gives (t : FileTree) (settings : Settings) (messages : List (List Bytes)) :
    Reply FileStreams (Opening OpenFile) → Prop where
  | stream {reply} {h : OpenFile} (answer : reply.answer = .stream h)
      (ahead : messages = (h.scan t settings).messages settings.multipart ++
        t.messagesIn settings (reply.next.toOpen t)) : Gives t settings messages reply
  | exhausted {reply} (answer : reply.answer = .exhausted) (ahead : messages = [])
      (next : reply.next.toOpen t = []) : Gives t settings messages reply
  | failed {reply} {error : IoError} (answer : reply.answer = .failed error)
      (ahead : messages = t.messagesIn settings (reply.next.toOpen t)) :
      Gives t settings messages reply

/-- Trying the first of some files takes its messages away from those of all.  Of a file that cannot
    be opened there are none to take. -/
theorem openFirst_gives (settings : Settings) (f : FileStreams) (paths : List Bytes) :
    Gives t settings (t.messagesIn settings paths) (f.openFirst t paths) := by
  cases paths with
  | nil => exact .exhausted rfl rfl rfl
  | cons path rest =>
    rw [openFirst, FileTree.messagesIn, List.flatMap_cons, FileTree.messagesAt]
    cases hopen : OpenFile.ofPath t path with
    | ok h => exact .stream rfl rfl
    | error error => exact .failed rfl rfl

/-- A walk finds the files, or it fails, and there are none. -/
theorem nextStream_gives (settings : Settings) (f : FileStreams) :
    Gives t settings (t.messagesIn settings (f.toOpen t)) (f.nextStream t) := by
  rw [nextStream, toOpen]
  cases f.pending with
  | some paths => exact openFirst_gives settings f paths
  | none =>
    rw [FileTree.filesBelow]
    cases t.files f.root with
    | error error => exact .failed rfl rfl
    | ok paths =>
      cases openFirst_gives (t := t) settings f paths with
      | stream answer ahead => exact .stream answer ahead
      | exhausted answer ahead next => exact .exhausted answer ahead next
      | failed answer ahead => exact .failed answer ahead

/-- What asking for the next stream makes of the files still to be opened: it tries the first one
    and leaves the others, or there are none. -/
inductive Takes (t : FileTree) (paths : List Bytes) : Reply FileStreams (Opening OpenFile) → Prop where
  | tried {reply} {path : Bytes} {rest : List Bytes} (first : paths = path :: rest)
      (answer : reply.answer = Try.answer ⟨path, t⟩) (next : reply.next.pending = some rest) :
      Takes t paths reply
  | exhausted {reply} (none : paths = []) (answer : reply.answer = .exhausted)
      (next : reply.next.pending = some []) : Takes t paths reply
  | unwalked {reply} {error : IoError} (none : paths = []) (answer : reply.answer = .failed error)
      (next : reply.next.pending = some []) : Takes t paths reply

/-- Once they are known, a request takes the first of the files still to be opened. -/
theorem takes_of_pending {f : FileStreams} {paths : List Bytes} (h : f.pending = some paths) :
    Takes t paths (f.nextStream t) := by
  cases paths with
  | nil =>
    rw [nextStream_of_nil h]
    exact .exhausted rfl rfl rfl
  | cons path rest =>
    rw [nextStream_of_cons h]
    exact .tried rfl rfl rfl

/-- **Asking for the next stream** takes the first of the files still to be opened.  Before the
    walk, a request makes the walk, and then does what a later one does. -/
theorem nextStream_takes (t : FileTree) (f : FileStreams) :
    Takes t (f.toOpen t) (f.nextStream t) := by
  cases hpending : f.pending with
  | some paths =>
    have hopen : f.toOpen t = paths := by rw [toOpen, hpending]
    rw [hopen]
    exact takes_of_pending hpending
  | none =>
    rw [toOpen, hpending]
    dsimp only
    rw [FileTree.filesBelow]
    cases hwalk : t.files f.root with
    | error error =>
      rw [nextStream_of_error hpending hwalk]
      exact .unwalked rfl rfl rfl
    | ok paths =>
      -- the walk is made, and the request goes on as if its files had been pending
      rw [nextStream_of_files hpending hwalk]
      cases takes_of_pending (t := t) (f := { f with pending := some paths }) rfl with
      | tried first answer next => exact .tried first answer next
      | exhausted none answer next => exact .exhausted none answer next
      | unwalked none answer next => exact .unwalked none answer next

end FileStreams

namespace Feed

/-- The messages that the stream that is held still has.  The reference for them is a scan from
    where its scanner stands. -/
def heldMessages {ω φ η : Type} [ByteSource ω η] (w : ω) (f : Feed ω φ η) : List (List Bytes) :=
  match f.link with
  | .connected scanner => (scanner.drain w).messages f.settings.multipart
  | _ => []

/-- The messages ahead: those of the stream that is held, then those of the files still to be
    opened.  This is what the loops work off. -/
def messagesAhead (t : FileTree) (f : FileFeed) : List (List Bytes) :=
  f.heldMessages t ++ t.messagesIn f.settings (f.factory.toOpen t)

section Reading

variable {ω φ η : Type} [ByteSource ω η] {w : ω} {f : Feed ω φ η}

theorem heldMessages_of_not_connected (h : f.link.isConnected = false) : f.heldMessages w = [] := by
  unfold heldMessages
  split
  · rename_i hlink
    simp [hlink, Link.isConnected] at h
  · rfl

/-- **A read takes the first message away**, or the stream has none left. -/
theorem heldMessages_read (w : ω) (f : Feed ω φ η) :
    match (f.read w).answer with
    | .ok message => f.heldMessages w = message.payloads :: (f.read w).next.heldMessages w
    | .error _ => f.heldMessages w = [] := by
  cases hlink : f.link with
  | idle | closed =>
    have hfree : f.link.isConnected = false := by rw [hlink]; rfl
    rw [read_not_connected hfree]
    exact heldMessages_of_not_connected hfree
  | connected scanner =>
    have hheld : f.heldMessages w = (scanner.drain w).messages f.settings.multipart := by
      rw [heldMessages, hlink]
    rw [hheld]
    cases read_spec (w := w) hlink with
    | first answer link ahead outcome =>
      rw [answer, heldMessages, link, read_settings]
      exact ahead
    | last answer link ahead outcome =>
      rw [answer, heldMessages_of_not_connected (by rw [link]; rfl)]
      exact ahead
    | none answer link ahead =>
      rw [answer]
      exact ahead

/-- A read does not find out that there are no more streams: only a request for one does. -/
theorem read_not_closed (h : f.link ≠ .closed) : (f.read w).next.link ≠ .closed := by
  cases hlink : f.link with
  | closed => exact absurd hlink h
  | idle =>
    rw [read_not_connected (by rw [hlink]; rfl)]
    exact h
  | connected scanner =>
    rcases read_link w hlink with hidle | ⟨later, hlater, -⟩
    · simp [hidle]
    · simp [hlater]

/-- A read that fails can be recovered from: it had no stream, met a record that is too large, or
    its stream broke off. -/
theorem read_recoverable {error : FeedError} (h : (f.read w).answer = .error error) :
    error.isRecoverable = true := by
  cases hlink : f.link with
  | idle | closed =>
    rw [read_not_connected (by rw [hlink]; rfl)] at h
    obtain rfl := Except.error.inj h
    rfl
  | connected scanner =>
    have hlimit (held : Scanner η Delimiter) (hheld : f.link = .connected held) :
        held.limit = scanner.limit := by
      obtain rfl := Link.connected.inj (hheld.symm.trans hlink)
      rfl
    rcases read_error_eq hlimit h with rfl | rfl | ⟨cause, rfl⟩ <;> rfl

end Reading

/-- What connecting makes of a feed that holds no stream. -/
structure KeepsAhead (t : FileTree) (f : FileFeed)
    (reply : Reply FileFeed (Except FeedError Unit)) : Prop where
  ahead : reply.next.messagesAhead t = f.messagesAhead t
  settings : reply.next.settings = f.settings
  printed : reply.events.filterMap Event.printed? = []
  /-- it says that there are no more streams when nothing is ahead, and only then is closed -/
  exhausted : reply.answer = .error .closed → f.messagesAhead t = []
  not_closed : reply.answer ≠ .error .closed → reply.next.link ≠ .closed
  recoverable : ∀ error, reply.answer = .error error → error ≠ .closed → error.isRecoverable = true

/-- **Connecting changes nothing of what is ahead**, whether it takes up a file, skips one, or fails
    to walk.  What it takes from the files still to be opened is what the stream then holds. -/
theorem connect_keepsAhead {f : FileFeed} (h : f.link = .idle) : KeepsAhead t f (f.connect t) := by
  have hprinted := connect_prints_nothing t f
  have hsettings := connect_settings t f
  have hgives := f.factory.nextStream_gives (t := t) f.settings
  have hahead : f.messagesAhead t = t.messagesIn f.settings (f.factory.toOpen t) := by
    rw [messagesAhead, heldMessages_of_not_connected (by rw [h]; rfl), List.nil_append]
  obtain ⟨events, hconnect⟩ := connect_of_idle (w := t) h
  rw [hconnect] at hprinted hsettings ⊢
  simp only [StreamFactory.nextStream] at hprinted hsettings ⊢
  generalize f.factory.nextStream t = asked at hgives hprinted hsettings ⊢
  obtain ⟨answer, factory, asking⟩ := asked
  cases hgives with
  | stream answer ahead =>
    obtain rfl := answer
    refine ⟨?_, hsettings, hprinted, by simp, by simp, by simp⟩
    rw [hahead, ahead, messagesAhead, heldMessages]
    exact congrArg (fun scan => scan.messages f.settings.multipart ++ _)
      (OpenFile.drain_scannerOver t f _)
  | exhausted answer ahead next =>
    obtain rfl := answer
    refine ⟨?_, hsettings, hprinted, fun _ => hahead.trans ahead, by simp, by simp⟩
    rw [hahead, ahead, messagesAhead, heldMessages, next]
    rfl
  | failed answer ahead =>
    obtain rfl := answer
    refine ⟨?_, hsettings, hprinted, by simp, by simp [h], ?_⟩
    · rw [hahead, ahead, messagesAhead, heldMessages_of_not_connected (by rw [h]; rfl)]
      rfl
    · intro error herror _
      obtain rfl := Except.error.inj herror
      rfl

end Feed

/-! ## The loops

  Each of the two loops has its own list: the inner one what the stream still has, the outer
  one all that is ahead.  Both lemmas go by the recursion of the loop, one case for each way in
  which a turn of it can go. -/

/-- The messages are printed, in order, after `count` others. -/
structure Prints (multipart : Bool) (messages : List (List Bytes)) (count : Nat)
    (reply : Reply (Redelivery FileFeed) (Except FeedError Nat)) : Prop where
  answer : reply.answer = .ok (count + messages.length)
  printed : reply.events.filterMap Event.printed? = messages.map (rendered multipart)

variable {multipart : Bool} {messages later : List (List Bytes)} {count : Nat}
  {r : Redelivery FileFeed} {reply : Reply (Redelivery FileFeed) (Except FeedError Nat)}

/-- Messages printed before those of the reply count with them.  This is the step of both loops. -/
theorem Prints.after (h : Prints multipart later (count + messages.length) reply)
    {events : List Event}
    (hevents : events.filterMap Event.printed? = messages.map (rendered multipart)) :
    Prints multipart (messages ++ later) count (reply.after events) := by
  constructor
  · rw [Reply.after_answer, h.answer, List.length_append, Nat.add_assoc]
  · rw [Reply.after_events, List.filterMap_append, hevents, h.printed, List.map_append]

/-- With no message waiting to come again, a read asks the feed and keeps its message as pending. -/
theorem Redelivery.exists_read_eq (hqueue : r.queue = []) :
    ∃ pending, r.read t =
      { answer := (r.inner.read t).answer
        next := { inner := (r.inner.read t).next, pending, queue := [] }
        events := (r.inner.read t).events } := by
  obtain ⟨inner, pending, queue⟩ := r
  obtain rfl : queue = [] := hqueue
  rw [Redelivery.read_of_queue_nil rfl]
  simp only [Feed.reader_read]
  cases (inner.read t).answer <;> exact ⟨_, rfl⟩

/-- When a read fails, the stream has nothing left, and the failure ends only the stream. -/
theorem Redelivery.of_read_error (hqueue : r.queue = []) {error : FeedError}
    (hread : (r.read t).answer = .error error) :
    r.inner.heldMessages t = [] ∧ (r.read t).events.filterMap Event.printed? = [] ∧
      error.isRecoverable = true := by
  obtain ⟨pending, hreply⟩ := Redelivery.exists_read_eq (t := t) hqueue
  rw [hreply] at hread ⊢
  have hheld := Feed.heldMessages_read t r.inner
  rw [hread] at hheld
  exact ⟨hheld, Feed.read_prints_nothing t r.inner, Feed.read_recoverable hread⟩

/-- A read that succeeds, followed by the settling of its message, takes this message off those of
    the stream. -/
theorem Redelivery.of_read_ok (hqueue : r.queue = []) {message : Message}
    (hread : (r.read t).answer = .ok message) :
    let settled := ((r.read t).next.acknowledge t none).next
    r.inner.heldMessages t = message.payloads :: settled.inner.heldMessages t ∧
      settled.inner.settings = r.inner.settings ∧ settled.queue = [] ∧
      (r.read t).events.filterMap Event.printed? = [] := by
  obtain ⟨pending, hreply⟩ := Redelivery.exists_read_eq (t := t) hqueue
  rw [hreply] at hread ⊢
  have hheld := Feed.heldMessages_read t r.inner
  rw [hread] at hheld
  -- settling a message leaves the stream and the settings alone
  exact ⟨hheld, Feed.read_settings t r.inner, rfl, Feed.read_prints_nothing t r.inner⟩

/-- **One stream.**  All messages that the stream still has are printed.  By induction on the reads
    of the loop. -/
theorem printStream_prints (hqueue : r.queue = []) (hmode : r.inner.settings.multipart = multipart)
    (count : Nat) :
    Prints multipart (r.inner.heldMessages t) count (printStream t {} multipart r count) := by
  fun_induction printStream t {} multipart r count with
  | case1 r count reply hread =>
    -- The stream is over: it had nothing left to print.
    obtain ⟨hheld, hprinted, -⟩ := Redelivery.of_read_error hqueue hread
    rw [hheld]
    exact ⟨rfl, hprinted⟩
  | case2 r count reply error hother hread hrecoverable =>
    -- The stream broke off or met a record that is too large: what came before was printed, and the
    -- loop ends without a failure of its own.
    obtain ⟨hheld, hprinted, -⟩ := Redelivery.of_read_error hqueue hread
    rw [hheld]
    refine ⟨rfl, ?_⟩
    rw [List.filterMap_append, hprinted]
    rfl
  | case3 r count reply error hother hread hfatal =>
    -- A read never fails in a way that ends the program.
    exact absurd (Redelivery.of_read_error hqueue hread).2.2 hfatal
  -- Nothing is refused: the outlet takes everything.
  | case4 r count reply message hread error hrefused => simp at hrefused
  | case5 r count reply message hread hroom settled ih =>
    -- The message is the first one of the stream, and it is settled before the next read.
    obtain ⟨hheld, hsettings, hsettled, hreading⟩ := Redelivery.of_read_ok hqueue hread
    have hlater := ih hsettled ((congrArg Settings.multipart hsettings).trans hmode)
    have hevents :
        (reply.events ++ .printed (message.printed multipart) :: settled.events).filterMap
          Event.printed? = [message.payloads].map (rendered multipart) := by
      have hsettling : settled.events = [] := rfl
      rw [List.filterMap_append, hreading, hsettling, Message.printed_eq]
      rfl
    rw [hheld]
    exact hlater.after hevents

/-- What reading and settling keep of a feed, printing its stream keeps.  By induction on the reads
    of the loop.  It is used for what printing does not touch, such as the settings. -/
theorem printStream_keeps {P : FileFeed → Prop} (hread : ∀ f, P f → P (f.read t).next)
    (hsettle : ∀ f, P f → P (f.acknowledge none).next) (out : Outlet) (h : P r.inner)
    (count : Nat) :
    P (printStream t out multipart r count).next.inner := by
  have hreads {r : Redelivery FileFeed} (h : P r.inner) : P (r.read t).next.inner := by
    cases hqueue : r.queue with
    | cons first rest =>
      rw [Redelivery.read_of_queue_cons hqueue]
      exact h
    | nil =>
      obtain ⟨pending, hreply⟩ := Redelivery.exists_read_eq (t := t) hqueue
      rw [hreply]
      exact hread r.inner h
  fun_induction printStream t out multipart r count with
  | case1 | case2 | case3 | case4 => exact hreads h
  | case5 r count reply message hanswer hroom settled ih => exact ih (hsettle _ (hreads h))

/-- **All streams.**  All messages ahead are printed.  By induction on the streams of the loop. -/
theorem printAll_prints (hr : AtRest r) (hidle : r.inner.link = .idle)
    (hmode : r.inner.settings.multipart = multipart) (count : Nat) :
    Prints multipart (r.inner.messagesAhead t) count (printAll t {} multipart r hr count) := by
  fun_induction printAll t {} multipart r hr count with
  -- No more streams: nothing is ahead, and nothing is printed.
  | case1 r hr count reply hconnect =>
    have hkeeps := Feed.connect_keepsAhead (t := t) hidle
    rw [hkeeps.exhausted (hr.connect_answer.symm.trans hconnect)]
    exact ⟨rfl, hkeeps.printed⟩
  -- A stream that cannot be had is skipped. It had no messages, so that as much is ahead as before.
  | case2 r hr count reply error hother hconnect hrecoverable ih =>
    have hkeeps := Feed.connect_keepsAhead (t := t) hidle
    have hanswer : (r.inner.connect t).answer = .error error :=
      hr.connect_answer.symm.trans hconnect
    have hopen : reply.next.inner.link ≠ .closed := hkeeps.not_closed fun hclosed =>
      hother (Except.error.inj (hanswer.symm.trans hclosed))
    have hothers := ih (Link.eq_idle (hr.of_connect_error hconnect).link hopen)
      ((congrArg Settings.multipart hkeeps.settings).trans hmode)
    have hahead : r.inner.messagesAhead t = [] ++ reply.next.inner.messagesAhead t :=
      hkeeps.ahead.symm
    have hevents : (reply.events ++ [Event.log (.skipping error)]).filterMap Event.printed? =
        ([] : List (List Bytes)).map (rendered multipart) := by
      rw [List.filterMap_append]
      exact congrArg (· ++ []) hkeeps.printed
    rw [hahead]
    exact hothers.after hevents
  -- No other error than the end of all streams is beyond recovery, so that this does not happen.
  | case3 r hr count reply error hother hconnect hfatal =>
    have hkeeps := Feed.connect_keepsAhead (t := t) hidle
    have hanswer : (r.inner.connect t).answer = .error error :=
      hr.connect_answer.symm.trans hconnect
    exact absurd (hkeeps.recoverable error hanswer hother) hfatal
  -- The inner loop does not fail, for nothing is refused.
  | case4 r hr count reply hconnect stream error hstream =>
    have hkeeps := Feed.connect_keepsAhead (t := t) hidle
    have hprints : Prints multipart (reply.next.inner.heldMessages t) count stream :=
      printStream_prints (r := reply.next) hr.queue
        ((congrArg Settings.multipart hkeeps.settings).trans hmode) count
    exact nomatch hstream.symm.trans hprints.answer
  -- A stream is taken up: what it holds is printed by the inner loop, and what is in the files
  -- behind it is left to the later turns.
  | case5 r hr count reply hconnect stream printed hstream ih =>
    have hkeeps := Feed.connect_keepsAhead (t := t) hidle
    have hanswer : (r.inner.connect t).answer = .ok () := hr.connect_answer.symm.trans hconnect
    have hopen : reply.next.inner.link ≠ .closed := hkeeps.not_closed (by simp [hanswer])
    have hprints : Prints multipart (reply.next.inner.heldMessages t) count stream :=
      printStream_prints (r := reply.next) hr.queue
        ((congrArg Settings.multipart hkeeps.settings).trans hmode) count
    obtain rfl : printed = count + (reply.next.inner.heldMessages t).length :=
      Except.ok.inj (hstream.symm.trans hprints.answer)
    -- the loop over the stream leaves a feed that is idle, on the same settings and files
    have hrest : AtRest stream.next := .of_printStream hr.pending hstream
    obtain ⟨hopen', hsettings⟩ : stream.next.inner.link ≠ .closed ∧
        stream.next.inner.settings = r.inner.settings :=
      printStream_keeps (P := fun f => f.link ≠ .closed ∧ f.settings = r.inner.settings)
        (fun f hf => ⟨Feed.read_not_closed hf.1, (Feed.read_settings t f).trans hf.2⟩)
        (fun f hf => hf) {} ⟨hopen, hkeeps.settings⟩ count
    have hfactory : stream.next.inner.factory = reply.next.inner.factory :=
      printStream_factory t {} multipart reply.next count
    have hlater : stream.next.inner.messagesAhead t =
        t.messagesIn r.inner.settings (reply.next.inner.factory.toOpen t) := by
      rw [Feed.messagesAhead, Feed.heldMessages_of_not_connected hrest.link, hsettings, hfactory]
      rfl
    have hahead : r.inner.messagesAhead t =
        reply.next.inner.heldMessages t ++ stream.next.inner.messagesAhead t := by
      rw [hlater, ← hkeeps.settings]
      exact hkeeps.ahead.symm
    have hothers := ih (Link.eq_idle hrest.link hopen') (by rw [hsettings, hmode])
    have hevents : (reply.events ++ stream.events).filterMap Event.printed? =
        (reply.next.inner.heldMessages t).map (rendered multipart) := by
      rw [List.filterMap_append, hprints.printed]
      exact congrArg (· ++ _) hkeeps.printed
    rw [hahead]
    exact hothers.after hevents

/-! ## The whole program

  A run that is accepted starts at rest, with all files still to be opened and nothing printed.
  So what is ahead of it is what the files below the path have. -/

namespace FileTree

/-- The messages of all files below a path, one file after another.  This is what a run prints. -/
def messagesBelow (t : FileTree) (settings : Settings) (path : Bytes) : List (List Bytes) :=
  t.messagesIn settings (t.filesBelow path)

/-- What is printed of the file that a path leads to. -/
def printedAt (t : FileTree) (settings : Settings) (path : Bytes) : Bytes :=
  (t.messagesAt settings path).flatMap (rendered settings.multipart)

end FileTree

namespace Printout

/-- The run prints what there is to be printed of the files below a path, one after another, and
    says how many messages they have. -/
structure Shows (t : FileTree) (settings : Settings) (path : Bytes) (p : Printout) : Prop where
  output : p.output = (t.filesBelow path).flatMap (t.printedAt settings)
  result : p.result = .ok (t.messagesBelow settings path).length
  reported : p.events.getLast? = some (.log (.consumed (t.messagesBelow settings path).length))

/-- Accepted options make a feed of the files below their path, and the run prints its streams. -/
theorem run_of_accepted {o : Options} {settings : Settings} (out : Outlet)
    (h : o.Accepted t settings) :
    ∃ (feed : FileFeed) (hmake : Feed.make { root := o.path } id settings = .ok feed),
      run t out o =
        let reply := printAll t out settings.multipart { inner := feed } (.of_make hmake) 0
        match reply.answer with
        | .error error => failed error reply.events
        | .ok count =>
          { result := .ok count
            events := reply.events ++ (reply.next.waitForClose t closingTime).events ++
              [.log (.consumed count)] } := by
  obtain ⟨hsettings, hvalid⟩ := Options.accepted_iff.mp h
  rw [run, hsettings]
  dsimp only
  split
  · -- the constructor refuses settings only that do not fit together
    rename_i error hmake
    simp [Feed.make, hvalid] at hmake
  · rename_i feed hmake
    exact ⟨feed, hmake, rfl⟩

/-- A feed of files gives its handle back, and says so.  None of this is printed. -/
theorem waitForClose_events (t : FileTree) (r : Redelivery FileFeed) :
    ∀ e ∈ (r.waitForClose t closingTime).events, e = .log (.closing closingTime) ∨
      e = .dropped ∨ e = .log .released := by
  show ∀ e ∈ Event.log (.closing closingTime) :: r.inner.release.events, _
  rw [Feed.release]
  cases r.inner.link <;> simp

/-- Accepted options print the messages of the files below their path. -/
theorem shows_of_accepted {o : Options} {settings : Settings} (h : o.Accepted t settings) :
    Shows t settings o.path (run t {} o) := by
  obtain ⟨feed, hmake, hrun⟩ := run_of_accepted {} h
  have hidle := Feed.link_of_make hmake
  obtain ⟨hfactory, hsame⟩ := Feed.of_make hmake
  -- nothing is held yet, and all files are still to be opened
  have hahead : feed.messagesAhead t = t.messagesBelow settings o.path := by
    rw [Feed.messagesAhead, Feed.heldMessages_of_not_connected (by rw [hidle]; rfl), hfactory,
      hsame]
    rfl
  have hprints := printAll_prints (t := t) (.of_make hmake) hidle (congrArg _ hsame) 0
  rw [hahead] at hprints
  obtain ⟨hanswer, hprinted⟩ := hprints
  rw [Nat.zero_add] at hanswer
  have hclosing (r : Redelivery FileFeed) :
      (r.waitForClose t closingTime).events.filterMap Event.printed? = [] := by
    rw [List.filterMap_eq_nil_iff]
    intro e he
    rcases waitForClose_events t r e he with rfl | rfl | rfl <;> rfl
  rw [hrun]
  simp only [hanswer]
  refine ⟨?_, rfl, ?_⟩
  · have hrendered :
        ((t.messagesBelow settings o.path).map (rendered settings.multipart)).flatten =
          (t.filesBelow o.path).flatMap (t.printedAt settings) := by
      rw [← List.flatMap_def, FileTree.messagesBelow, FileTree.messagesIn, List.flatMap_assoc]
      rfl
    rw [output, List.filterMap_append, List.filterMap_append, hprinted, hclosing, ← hrendered]
    simp [Event.printed?]
  · exact List.getLast?_concat

/-- Options that are not accepted are refused before anything is printed, by reading the settings or
    by the constructor of the feed. -/
theorem failed_of_not_accepted {o : Options} (h : ∀ settings, ¬ o.Accepted t settings) :
    ∃ error, run t {} o = failed error [] := by
  rw [run]
  cases hsettings : o.settings t with
  | error error => exact ⟨error, rfl⟩
  | ok settings =>
    dsimp only
    split
    · rename_i error hmake
      exact ⟨error, rfl⟩
    · rename_i feed hmake
      -- a feed that was made has settings that were accepted
      have haccepted := Options.accepted_iff.mpr ⟨hsettings, Feed.validate_of_make hmake⟩
      exact absurd haccepted (h settings)

/-- **What a run prints**, as long as everything can be printed.  The exit code is 0 exactly when
    the options are accepted.  Then the output is what is printed of each file below the path, one
    file after another in the order of the walk: all the messages of its own that come before its
    end or its failure.  The run says how many messages there were.

    If the walk fails, nothing is printed, and the exit code is still 0.  Whatever else happens to a
    file, what is printed of every other one stays the same. -/
theorem run_prints_files (t : FileTree) (o : Options) :
    ((run t {} o).exitCode = 0 ↔ ∃ settings, o.Accepted t settings) ∧
    ∀ settings, o.Accepted t settings →
      Shows t settings o.path (run t {} o) ∧
      (∀ error, t.files o.path = .error error →
        (run t {} o).output = [] ∧ (run t {} o).exitCode = 0) ∧
      ∀ file t', FileTree.SameBut file t t' → o.Accepted t' settings →
        (run t' {} o).output = (t.filesBelow o.path).flatMap fun path =>
          if t.lookup path = .ok file then t'.printedAt settings path
          else t.printedAt settings path := by
  have hcode {settings : Settings} (h : o.Accepted t settings) : (run t {} o).exitCode = 0 := by
    rw [exitCode, (shows_of_accepted h).result]
  constructor
  · constructor
    · -- a run that is not accepted has failed, and a failure has another exit code
      intro hzero
      by_contra hnone
      obtain ⟨error, hfailed⟩ := failed_of_not_accepted (not_exists.mp hnone)
      rw [hfailed] at hzero
      simp [exitCode, failed] at hzero
    · rintro ⟨settings, h⟩
      exact hcode h
  · intro settings h
    refine ⟨shows_of_accepted h, ?_, ?_⟩
    · intro error hwalk
      refine ⟨?_, hcode h⟩
      rw [(shows_of_accepted h).output, FileTree.filesBelow, hwalk]
      rfl
    · intro file t' hsame h'
      rw [(shows_of_accepted h').output, hsame.filesBelow_eq]
      -- the same files are walked, and only the one that was changed can have other messages
      refine List.flatMap_congr fun path _ => ?_
      by_cases hpath : t.lookup path = .ok file
      · rw [if_pos hpath]
      · rw [if_neg hpath, FileTree.printedAt, hsame.messagesAt_eq settings hpath]
        rfl

/-- The names of three files, as their directory lists them. -/
def threeNames : List (Name × Nat) :=
  [(⟨[99], by decide, by decide, by decide⟩, 3), (⟨[97], by decide, by decide, by decide⟩, 1),
    (⟨[98], by decide, by decide, by decide⟩, 2)]

/-- The directory with the files: one that breaks off in its third record, one that is shut, and one
    that can be read. -/
def threeFiles : FileTree where
  nodes := #[.directory 0 threeNames, .file #[49, 10, 10, 50, 10, 51, 52, 53], .file #[54, 10],
    .file #[55, 10, 56]]
  root := 0
  current := 0
  obstacle
    | 1 => some (.breaks 6 (.bare .timedOut))
    | 2 => some (.shut (.system .accessDenied))
    | _ => none

/-- The same directory after the first file was mended. -/
def firstMended : FileTree :=
  { threeFiles with obstacle := fun id => if id = 1 then none else threeFiles.obstacle id }

/-- Everything below the directory, in multipart mode. -/
def printThree : Options := { path := [46], multipart := true }

/-- The walk finds the three files, in the order of their names and not in that of the listing. -/
theorem threeFiles_filesBelow :
    threeFiles.filesBelow [46] = [[46, 47, 97], [46, 47, 98], [46, 47, 99]] := by
  have hroot : threeFiles.stat [46] = .ok (.directory 0 threeNames) := by cbv
  have hfile (name content : Bytes)
      (h : threeFiles.stat (Path.join [46] name) = .ok (.file content.toArray)) :
      threeFiles.walk (Path.join [46] name) = .ok [Path.join [46] name] := FileTree.walk_of_file h
  have hwalk : threeFiles.walk [46] = .ok [[46, 47, 99], [46, 47, 97], [46, 47, 98]] := by
    rw [FileTree.walk_of_directory hroot (by cbv), threeNames]
    simp only [List.mapM_cons, List.mapM_nil, hfile [99] [55, 10, 56] (by cbv),
      hfile [97] [49, 10, 10, 50, 10, 51, 52, 53] (by cbv), hfile [98] [54, 10] (by cbv)]
    rfl
  rw [FileTree.filesBelow, FileTree.files, hwalk]
  cbv

/-- The first file breaks off in its third record and the second one is shut, and still the exit
    code is 0: two messages are printed.  Mending the first file adds to what is printed of it, and
    leaves the rest as it was. -/
theorem run_prints_files_three_files :
    printThree.Accepted threeFiles { multipart := true } ∧
    FileTree.SameBut 1 threeFiles firstMended ∧
    (run threeFiles {} printThree).exitCode = 0 ∧
    (run threeFiles {} printThree).result = .ok 2 ∧
    (run threeFiles {} printThree).output = [49, 10, 10, 55, 10, 56, 10, 10] ∧
    (run firstMended {} printThree).output =
      [49, 10, 10, 50, 10, 51, 52, 53, 10, 10, 55, 10, 56, 10, 10] := by
  have haccepted : printThree.Accepted threeFiles { multipart := true } := .defaults rfl rfl
  have haccepted' : printThree.Accepted firstMended { multipart := true } := .defaults rfl rfl
  have hsame : FileTree.SameBut 1 threeFiles firstMended :=
    { root := rfl
      current := rfl
      node := fun _ _ => rfl
      obstacle := fun id hid => if_neg hid
      is_file := ⟨_, rfl⟩
      stays_file := ⟨_, rfl⟩ }
  obtain ⟨hcode, hruns⟩ := run_prints_files threeFiles printThree
  obtain ⟨hshows, -, hothers⟩ := hruns _ haccepted
  refine ⟨haccepted, hsame, hcode.mpr ⟨_, haccepted⟩, ?_, ?_, ?_⟩
  · rw [hshows.result, FileTree.messagesBelow, printThree, threeFiles_filesBelow]
    cbv
  · rw [hshows.output, printThree, threeFiles_filesBelow]
    cbv
  · rw [hothers 1 firstMended hsame haccepted', printThree, threeFiles_filesBelow]
    cbv

end Printout

end RecordFeed
