/-
  Printing what was printed.

  With a line feed for a delimiter, the program prints what it can read again: given a file that
  holds the output of a run, it prints this file as it is.

  1. **Lines** (`Line`).  What is cut at line feeds holds none and is shorter than the limit, also a
     last record that no delimiter ends (`line_of_mem_cut`).  So the line feed that is printed
     behind it never makes it too large.

  2. **The crux** (`messagesOf_linesOf`).  A message is printed as the records that it consists of,
     and in multipart mode with a blank one behind them (`rendered_eq_written`).  The blank record
     closes the message as it was closed before, by a blank record of its own or by the end of its
     file, so that the messages printed are the messages read.

  3. **The run** (`reprint_of_holds`, `run_without_failures`).  Only one file is read, with no
     record that is too large, so that no read fails.
-/
import RecordFeed.Proofs.Messages.Joined
import RecordFeed.Proofs.Printing.Output

namespace RecordFeed

/-! ## Lines

  The delimiter is one byte here.  So a record that was cut at it does not hold it, and no
  delimiter can begin in a record and end in the line feed that is printed behind it. -/

/-- A record that takes up one line, and is admitted by the limit with the line feed behind it:
    hence the strict inequality. -/
structure Line (limit : Nat) (record : Bytes) : Prop where
  unbroken : newline ∉ record
  fits : record.length < limit

variable {limit : Nat} {ending : StreamEnd} {multipart : Bool}

/-- A record that the first cut gives is a line: one that a line feed ends, or the last one, that
    nothing ends. -/
theorem line_of_firstCut {bytes record rest : Bytes}
    (h : firstCut [newline] limit ending bytes = .record record rest) : Line limit record := by
  rcases of_firstCut h with ⟨rfl, hfirst, hfits⟩ | ⟨-, rfl, -, -, hbelow, hnone⟩
  · refine ⟨fun hmem => ?_, hfits⟩
    -- a line feed in the record would have been found before the one behind it
    obtain ⟨j, hj, hbyte⟩ := List.getElem_of_mem hmem
    refine (Bytes.firstAt?_eq_some_iff.mp hfirst).2 j hj (Bytes.occurs_singleton_iff.mpr ?_)
    rw [List.append_assoc, List.getElem?_append_left hj, List.getElem?_eq_getElem hj, hbyte]
  · -- the end of the stream ends it: with a line feed in it, it would have been cut there
    refine ⟨fun hmem => ?_, hbelow⟩
    obtain ⟨j, hj, hbyte⟩ := List.getElem_of_mem hmem
    refine Bytes.firstAt?_eq_none_iff.mp hnone j (Bytes.occurs_singleton_iff.mpr ?_)
    rw [List.getElem?_eq_getElem hj, hbyte]

/-- **The records cut at line feeds are lines.**  By induction on the cuts. -/
theorem line_of_mem_cut {bytes : Bytes} :
    ∀ record ∈ (cut [newline] limit ending bytes).records, Line limit record := by
  fun_induction cut [newline] limit ending bytes with
  | case1 bytes record rest hcut ih => exact List.forall_mem_cons.mpr ⟨line_of_firstCut hcut, ih⟩
  | case2 bytes outcome hcut => exact List.forall_mem_nil _

/-! ## Messages as lines

  Printing forgets where the files began and which delimiters stood behind the records.  It
  keeps the parts of the messages and, in multipart mode, where a message ends. -/

/-- The records as which some messages are printed.  In multipart mode a blank one closes each
    message. -/
def linesOf (multipart : Bool) (messages : List (List Bytes)) : List Bytes :=
  messages.flatMap fun message => message ++ Scan.boundary multipart

/-- Printing writes these records. -/
theorem rendered_eq_written (multipart : Bool) (messages : List (List Bytes)) :
    messages.flatMap (rendered multipart) = written [newline] (linesOf multipart messages) := by
  have hone (message : List Bytes) :
      rendered multipart message = written [newline] (message ++ Scan.boundary multipart) := by
    rw [rendered, written, List.flatMap_append]
    cases multipart <;> rfl
  rw [written, linesOf, List.flatMap_assoc]
  exact List.flatMap_congr fun message _ => hone message

/-- The parts of the messages of a scan are records of it, and not blank. -/
theorem Scan.mem_of_mem_messages {scan : Scan} {message : List Bytes} {part : Bytes}
    (h : message ∈ scan.messages multipart) (hpart : part ∈ message) :
    part ∈ scan.records ∧ part.isEmpty = false := by
  have hcarried : part ∈ scan.carried :=
    (messages_flatten_sublist multipart scan).subset (List.mem_flatten_of_mem h hpart)
  obtain ⟨hrecord, hfilled⟩ := List.mem_filter.mp hcarried
  exact ⟨hrecord, by simpa using hfilled⟩

/-- The records of a message make this message again, and no other one. -/
theorem Scan.messagesOf_of_mem {scan : Scan} {message : List Bytes}
    (h : message ∈ scan.messages multipart) : messagesOf multipart message = [message] := by
  have hfilled : ∀ part ∈ message, part.isEmpty = false := fun part hpart =>
    (mem_of_mem_messages h hpart).2
  cases multipart with
  | true =>
    -- no part is blank, so that nothing splits the message, and it is not empty
    have hne := ne_nil_of_mem_messages h
    show (message.splitOnP List.isEmpty).filter _ = [message]
    rw [List.splitOnP_eq_singleton hfilled, List.filter_cons_of_pos (by simpa using hne)]
    rfl
  | false =>
    -- a message is a single record, and not a blank one
    obtain ⟨record, hrecord, rfl⟩ := List.mem_map.mp h
    have hkept : [record].filter (fun record => !record.isEmpty) = [record] :=
      List.filter_cons_of_pos (List.mem_filter.mp hrecord).2
    show ([record].filter fun record => !record.isEmpty).map _ = [[record]]
    rw [hkept]
    rfl

/-- **The lines of some messages make these messages.**  By induction on them. -/
theorem messagesOf_linesOf {messages : List (List Bytes)}
    (h : ∀ message ∈ messages, Scan.messagesOf multipart message = [message]) :
    Scan.messagesOf multipart (linesOf multipart messages) = messages := by
  induction messages with
  | nil => cases multipart <;> rfl
  | cons message later ih =>
    obtain ⟨hhere, hlater⟩ := List.forall_mem_cons.mp h
    have hlines : linesOf multipart (message :: later) =
        message ++ Scan.boundary multipart ++ linesOf multipart later := rfl
    rw [hlines, Scan.messagesOf_append, hhere, ih hlater]
    rfl

/-! ## The messages of a file

  The second run reads one file only.  Below the path of a file lies this file alone, and
  nothing keeps it from being opened and read to its end. -/

namespace FileTree

variable {t : FileTree} {settings : Settings} {path content : Bytes}

/-- The messages below a path come from scans of files. -/
theorem exists_scan_of_mem {message : List Bytes} (h : message ∈ t.messagesBelow settings path) :
    ∃ file : OpenFile, message ∈ (file.scan t settings).messages settings.multipart := by
  obtain ⟨below, -, hmessage⟩ := List.mem_flatMap.mp h
  rw [messagesAt] at hmessage
  cases hopen : OpenFile.ofPath t below with
  | ok file =>
    rw [hopen] at hmessage
    exact ⟨file, hmessage⟩
  | error error =>
    rw [hopen] at hmessage
    exact absurd hmessage List.not_mem_nil

/-- The path leads to a file with just these bytes, and nothing stands in the way of reading it. -/
def Holds (t : FileTree) (path content : Bytes) : Prop :=
  ∃ file, t.lookup path = .ok file ∧ t.node? file = some (.file content.toArray) ∧
    t.obstacle file = none

/-- Such a file is all that lies below its path. -/
theorem Holds.filesBelow (h : t.Holds path content) : t.filesBelow path = [path] := by
  obtain ⟨file, hlookup, hnode, -⟩ := h
  have hstat : t.stat path = .ok (.file content.toArray) := by
    rw [stat, hlookup]
    simp only [hnode]
  rw [FileTree.filesBelow, files, walk_of_file hstat]
  simp [Except.map]

/-- Its scan is the one of the bytes. -/
theorem Holds.ofPath (h : t.Holds path content) :
    ∃ file, OpenFile.ofPath t path = .ok file ∧
      ∀ settings, file.scan t settings =
        cut settings.delimiterBytes settings.maxTokenSize .over content := by
  obtain ⟨file, hlookup, hnode, hclear⟩ := h
  refine ⟨{ node := file }, ?_, fun settings => ?_⟩
  · rw [OpenFile.ofPath, hlookup]
    simp only [shut?, hclear]
  · rw [OpenFile.scan, OpenFile.rest, OpenFile.ending, OpenFile.content, OpenFile.fault?]
    simp only [hnode, hclear]
    rfl

end FileTree

/-! ## Reads that do not fail

  Not only the printed messages must be the same: the second run may not meet a failure on the
  way either, for it would be logged.  A feed all of whose streams are scanned to their ends
  meets none. -/

/-- Reading a stream failed, and why. -/
def Event.readFailure? : Event → Option FeedError
  | .log (.readFailed error) => some error
  | _ => none

variable {t : FileTree}

namespace Feed

/-- No stream of the feed has a record that is too large, or breaks off: neither the one that is
    held nor the files still to be opened.  This is the invariant of a run that meets no failure. -/
structure Clean (t : FileTree) (f : FileFeed) : Prop where
  held : ∀ scanner, f.link = .connected scanner → (scanner.drain t).outcome = .ok ()
  to_come : ∀ path ∈ f.factory.toOpen t, ∀ file, OpenFile.ofPath t path = .ok file →
    (file.scan t f.settings).outcome = .ok ()

variable {f : FileFeed}

/-- Where no stream is held, only the files still to be opened matter. -/
theorem Clean.of_idle {g : FileFeed} (h : f.Clean t) (hfactory : g.factory = f.factory)
    (hsettings : g.settings = f.settings) (hfree : g.link.isConnected = false) : g.Clean t := by
  refine ⟨fun scanner hlink => ?_, ?_⟩
  · simp [hlink, Link.isConnected] at hfree
  · rw [hfactory, hsettings]
    exact h.to_come

/-- **A read of a clean feed leaves it clean**, and fails only for want of a message. -/
theorem Clean.read (h : f.Clean t) : (f.read t).next.Clean t := by
  have hfactory := read_factory t f
  have hsettings := read_settings t f
  cases hlink : f.link with
  | idle | closed =>
    rw [read_not_connected (by rw [hlink]; rfl)]
    exact h
  | connected scanner =>
    cases read_spec (w := t) hlink with
    | first answer link ahead outcome =>
      -- behind the message, the stream ends as it would have ended before
      refine ⟨fun later hlater => ?_, ?_⟩
      · obtain rfl := Link.connected.inj (link.symm.trans hlater)
        exact outcome.trans (h.held scanner hlink)
      · rw [hfactory, hsettings]
        exact h.to_come
    | last answer link | none answer link =>
      -- the stream was given back
      exact h.of_idle hfactory hsettings (by rw [link]; rfl)

/-- A read of a clean feed does not fail. -/
theorem Clean.read_events (h : f.Clean t) :
    (f.read t).events.filterMap Event.readFailure? = [] := by
  cases hlink : f.link with
  | idle | closed =>
    rw [read_not_connected (by rw [hlink]; rfl)]
    rfl
  | connected scanner =>
    have hclean := h.held scanner hlink
    have hgather : Gathers t f.settings.multipart
        ((scanner.drain t).messages f.settings.multipart) (scanner.drain t).outcome
        (gather t f.settings.multipart scanner { arena := f.arena }) := gather_spec opened_nil
    have hscanning :=
      (gather_leaves t f.settings.multipart scanner { arena := f.arena }).scanning
    rw [read_connected hlink]
    generalize gather t f.settings.multipart scanner { arena := f.arena } = gathered
      at hgather hscanning ⊢
    obtain ⟨answer, ⟨later, assembly⟩, events⟩ := gathered
    -- scanning logs nothing
    have hquiet : events.filterMap Event.readFailure? = [] := by
      rw [List.filterMap_eq_nil_iff]
      intro e he
      have hevent := hscanning e he
      cases e <;> first | rfl | exact hevent.elim
    cases answer with
    | complete => exact hquiet
    | drained =>
      simp only [settle, release, List.filterMap_append, hquiet]
      rfl
    | failed error =>
      -- a stream that is scanned to its end does not fail
      have hbroken : (scanner.drain t).outcome = .error error := hgather.2
      simp [hclean] at hbroken

/-- Opening the next file leaves a clean feed clean. -/
theorem Clean.connect (h : f.Clean t) : (f.connect t).next.Clean t := by
  cases hlink : f.link with
  | connected scanner =>
    rw [connect_of_connected hlink]
    exact h
  | closed =>
    rw [connect_of_closed hlink]
    exact h
  | idle =>
    have htakes := f.factory.nextStream_takes t
    obtain ⟨events, hconnect⟩ := connect_of_idle (w := t) hlink
    rw [hconnect]
    simp only [StreamFactory.nextStream]
    generalize f.factory.nextStream t = asked at htakes ⊢
    obtain ⟨answer, factory, asking⟩ := asked
    cases htakes with
    | @tried path rest first answer next =>
      -- what is behind the first file was to come before
      have hlater : ∀ below ∈ factory.toOpen t, ∀ file, OpenFile.ofPath t below = .ok file →
          (file.scan t f.settings).outcome = .ok () := by
        intro below hbelow
        rw [FileStreams.toOpen, next] at hbelow
        exact h.to_come below (first ▸ List.mem_cons_of_mem path hbelow)
      subst answer
      cases hopen : OpenFile.ofPath t path with
      | ok file =>
        have hhere := h.to_come path (first ▸ List.mem_cons_self) file hopen
        simp only [Try.answer, hopen]
        refine ⟨fun scanner hscanner => ?_, hlater⟩
        obtain rfl := Link.connected.inj hscanner
        -- the scan of the stream is the one of the file, from its first byte
        rw [OpenFile.drain_scannerOver]
        exact hhere
      | error error =>
        simp only [Try.answer, hopen]
        exact ⟨fun scanner hscanner => by simp [hlink] at hscanner, hlater⟩
    | exhausted _ answer next | unwalked _ answer next =>
      -- no files are left, opened or to come
      have hnone : factory.toOpen t = [] := by rw [FileStreams.toOpen, next]
      subst answer
      refine ⟨fun scanner hscanner => by simp [hlink] at hscanner, fun below hbelow => ?_⟩
      simp [hnone] at hbelow

/-- Opening files reads nothing, so that it meets no failure of reading. -/
theorem connect_events (t : FileTree) (f : FileFeed) :
    (f.connect t).events.filterMap Event.readFailure? = [] := by
  rw [List.filterMap_eq_nil_iff]
  intro e he
  have hopening := connect_opening t f e he
  cases e with
  | log entry => cases entry <;> first | rfl | exact hopening.elim
  | _ => rfl

end Feed

variable {out : Outlet} {r : Redelivery FileFeed}

theorem printStream_clean (h : r.inner.Clean t) (count : Nat) :
    (printStream t out multipart r count).next.inner.Clean t :=
  printStream_keeps (P := Feed.Clean t) (fun _ hf => hf.read)
    (fun _ hf => ⟨hf.held, hf.to_come⟩) out h count

/-- Printing a stream of a clean feed meets no failure.  By induction on the reads of the loop. -/
theorem printStream_without_failures (hqueue : r.queue = []) (h : r.inner.Clean t) (count : Nat) :
    (printStream t out multipart r count).events.filterMap Event.readFailure? = [] := by
  have hread {r : Redelivery FileFeed} (hqueue : r.queue = []) (h : r.inner.Clean t) :
      (r.read t).events.filterMap Event.readFailure? = [] := by
    obtain ⟨pending, hreply⟩ := Redelivery.exists_read_eq (t := t) hqueue
    rw [hreply]
    exact h.read_events
  fun_induction printStream t out multipart r count with
  | case1 r count reply hanswer => exact hread hqueue h
  | case2 r count reply error hother hanswer hrecoverable =>
    rw [List.filterMap_append, hread hqueue h]
    rfl
  | case3 r count reply error hother hanswer hfatal => exact hread hqueue h
  | case4 r count reply message hanswer error hrefused kept =>
    rw [List.filterMap_append, hread hqueue h]
    rfl
  | case5 r count reply message hanswer hroom settled ih =>
    obtain ⟨pending, hreply⟩ := Redelivery.exists_read_eq (t := t) hqueue
    have hqueue' : settled.next.queue = [] := by
      show (r.read t).next.queue = []
      rw [hreply]
    have hinner : (r.read t).next.inner.Clean t := by
      rw [hreply]
      exact h.read
    have hlater := ih hqueue' ⟨hinner.held, hinner.to_come⟩
    rw [Reply.after_events, List.filterMap_append, List.filterMap_append, hread hqueue h, hlater]
    rfl

/-- **Printing the streams of a clean feed meets no failure.**  By induction on the streams of the
    loop. -/
theorem printAll_without_failures (hr : AtRest r) (h : r.inner.Clean t) (count : Nat) :
    (printAll t out multipart r hr count).events.filterMap Event.readFailure? = [] := by
  have hconnected (r : Redelivery FileFeed) :
      (r.connect t).events.filterMap Event.readFailure? = [] := Feed.connect_events t r.inner
  fun_induction printAll t out multipart r hr count with
  | case1 r hr count reply hconnect => exact hconnected r
  | case2 r hr count reply error hother hconnect hrecoverable ih =>
    rw [Reply.after_events, List.filterMap_append, List.filterMap_append, hconnected r,
      ih h.connect]
    rfl
  | case3 r hr count reply error hother hconnect hfatal => exact hconnected r
  | case4 r hr count reply hconnect stream error hstream =>
    rw [List.filterMap_append, hconnected r]
    exact printStream_without_failures (r := reply.next) hr.queue h.connect count
  | case5 r hr count reply hconnect stream printed hstream ih =>
    have hprinting : stream.events.filterMap Event.readFailure? = [] :=
      printStream_without_failures (r := reply.next) hr.queue h.connect count
    have hclean : stream.next.inner.Clean t := printStream_clean (r := reply.next) h.connect count
    rw [Reply.after_events, List.filterMap_append, List.filterMap_append, hconnected r, hprinting,
      ih hclean]
    rfl

/-! ## The whole program

  The second run is accepted by a hypothesis of its own, on the settings of the first one.  It
  meets one file, whose messages are those that were printed. -/

namespace Printout

/-- A run over files that can be scanned to their ends meets no failure. -/
theorem run_without_failures {o : Options} {settings : Settings} (h : o.Accepted t settings)
    (hfiles : ∀ path ∈ t.filesBelow o.path, ∀ file, OpenFile.ofPath t path = .ok file →
      (file.scan t settings).outcome = .ok ()) :
    (run t out o).events.filterMap Event.readFailure? = [] := by
  obtain ⟨feed, hmake, hrun⟩ := run_of_accepted out h
  obtain ⟨hfactory, hsame⟩ := Feed.of_make hmake
  have hclean : feed.Clean t := by
    refine ⟨fun scanner hscanner => ?_, ?_⟩
    · simp [Feed.link_of_make hmake] at hscanner
    · rw [hfactory, hsame]
      exact hfiles
  have hloop : (printAll t out settings.multipart { inner := feed } (.of_make hmake) 0).events.filterMap
      Event.readFailure? = [] := printAll_without_failures (.of_make hmake) hclean 0
  -- the handle is given back at the end, without another read
  have hclosing (r : Redelivery FileFeed) :
      (r.waitForClose t closingTime).events.filterMap Event.readFailure? = [] := by
    rw [List.filterMap_eq_nil_iff]
    intro e he
    rcases waitForClose_events t r e he with rfl | rfl | rfl <;> rfl
  rw [hrun]
  dsimp only
  split
  · rw [failed, List.filterMap_append, hloop]
    rfl
  · rw [List.filterMap_append, List.filterMap_append, hloop, hclosing]
    rfl

variable {t' : FileTree} {settings : Settings} {path path' : Bytes}

/-- The messages below a path make themselves again, and all their parts are lines.  Parts of
    messages are records that were cut at line feeds before, and this is all that matters of
    them. -/
theorem messagesBelow_printable (hdelimiter : settings.delimiterBytes = [newline]) :
    ∀ message ∈ t.messagesBelow settings path,
      Scan.messagesOf settings.multipart message = [message] ∧
        ∀ part ∈ message, Line settings.maxTokenSize part := by
  intro message hmessage
  obtain ⟨file, hscan⟩ := FileTree.exists_scan_of_mem hmessage
  refine ⟨Scan.messagesOf_of_mem hscan, fun part hpart => ?_⟩
  have hrecord := (Scan.mem_of_mem_messages hscan hpart).1
  rw [OpenFile.scan, hdelimiter] at hrecord
  exact line_of_mem_cut part hrecord

/-- **What is printed is scanned without a failure**, as the lines of the messages.  Each line fits,
    and so does the blank one that closes a message. -/
theorem cut_rendered {messages : List (List Bytes)} (hpos : 0 < limit)
    (hlines : ∀ message ∈ messages, ∀ part ∈ message, Line limit part) :
    cut [newline] limit .over (messages.flatMap (rendered multipart)) =
      { records := linesOf multipart messages, outcome := .ok () } := by
  rw [rendered_eq_written]
  refine cut_written hpos fun record hrecord => ?_
  obtain ⟨message, hmessage, hmem⟩ := List.mem_flatMap.mp hrecord
  -- a line is a part of a message, or the blank one behind it
  have hline : Line limit record := by
    rcases List.mem_append.mp hmem with hpart | hblank
    · exact hlines message hmessage record hpart
    · obtain rfl : record = [] := by
        rw [Scan.boundary] at hblank
        split at hblank
        · exact List.mem_singleton.mp hblank
        · exact absurd hblank List.not_mem_nil
      exact ⟨List.not_mem_nil, hpos⟩
  exact ⟨endedBy_singleton hline.unbroken, hline.fits⟩

/-- A file that holds what was printed has the messages that were printed, and its scan does not
    fail. -/
theorem reprint_of_holds (hdelimiter : settings.delimiterBytes = [newline])
    (hpos : 0 < settings.maxTokenSize)
    (hfile : t'.Holds path' ((t.messagesBelow settings path).flatMap (rendered settings.multipart))) :
    t'.messagesBelow settings path' = t.messagesBelow settings path ∧
      ∀ below ∈ t'.filesBelow path', ∀ file, OpenFile.ofPath t' below = .ok file →
        (file.scan t' settings).outcome = .ok () := by
  have hprintable : ∀ message ∈ t.messagesBelow settings path,
      Scan.messagesOf settings.multipart message = [message] ∧
        ∀ part ∈ message, Line settings.maxTokenSize part := messagesBelow_printable hdelimiter
  obtain ⟨file, hopen, hscan⟩ := hfile.ofPath
  have hcut : file.scan t' settings =
      { records := linesOf settings.multipart (t.messagesBelow settings path)
        outcome := .ok () } := by
    rw [hscan, hdelimiter]
    exact cut_rendered hpos fun message hmessage => (hprintable message hmessage).2
  constructor
  · rw [FileTree.messagesBelow, hfile.filesBelow, FileTree.messagesIn, List.flatMap_singleton,
      FileTree.messagesAt, hopen]
    dsimp only
    rw [hcut]
    exact messagesOf_linesOf fun message hmessage => (hprintable message hmessage).1
  · intro below hbelow other hother
    rw [hfile.filesBelow, List.mem_singleton] at hbelow
    subst below
    obtain rfl := Except.ok.inj (hopen.symm.trans hother)
    rw [hcut]

/-- **The output is printed as it is.**  A run prints the files below a path, with a line feed
    for a delimiter and any limit.  A second run on the same settings is given a file that holds
    this output.  It prints the same bytes, reports the same number of messages, and no read of
    it fails, so that none of its records is too large. -/
theorem run_reprints {o o' : Options} (hdelimiter : settings.delimiter = "\n")
    (h : o.Accepted t settings) (h' : o'.Accepted t' settings)
    (hfile : t'.Holds o'.path (run t {} o).output) :
    (run t' {} o').output = (run t {} o).output ∧
    (∃ messages, (run t {} o).result = .ok messages ∧ (run t' {} o').result = .ok messages) ∧
    (run t' {} o').events.filterMap Event.readFailure? = [] := by
  have hbytes : settings.delimiterBytes = [newline] := by
    rw [Settings.delimiterBytes, hdelimiter]
    decide
  have hpos : 0 < settings.maxTokenSize := by
    have hvalid := (Options.accepted_iff.mp h).2
    have hfits := (settings.validate_eq_ok_iff.mp hvalid).2.1
    omega
  -- what a run prints are its messages, one after another, whatever files they are from
  have hprinted {u : FileTree} {p : Options} (hp : p.Accepted u settings) :
      (run u {} p).output =
        (u.messagesBelow settings p.path).flatMap (rendered settings.multipart) := by
    rw [(shows_of_accepted hp).output, FileTree.messagesBelow, FileTree.messagesIn,
      List.flatMap_assoc]
    rfl
  rw [hprinted h] at hfile
  obtain ⟨hmessages, hclean⟩ := reprint_of_holds hbytes hpos hfile
  refine ⟨?_, ⟨_, (shows_of_accepted h).result, ?_⟩, run_without_failures h' hclean⟩
  · rw [hprinted h', hprinted h, hmessages]
  · rw [(shows_of_accepted h').result, hmessages]

/-- A directory with one file, which holds what is printed of the three files. -/
def oneFile : FileTree where
  nodes := #[.directory 0 [(⟨[111], by decide, by decide, by decide⟩, 1)],
    .file #[49, 10, 10, 55, 10, 56, 10, 10]]
  root := 0
  current := 0

/-- The output of the run over the three files is put into a file of its own.  It is printed as it
    is. -/
theorem run_reprints_three_files :
    ({ multipart := true } : Settings).delimiter = "\n" ∧
    printThree.Accepted threeFiles { multipart := true } ∧
    Options.Accepted oneFile { path := [111], multipart := true } { multipart := true } ∧
    oneFile.Holds [111] (run threeFiles {} printThree).output ∧
    (run oneFile {} { path := [111], multipart := true }).output =
      (run threeFiles {} printThree).output ∧
    (∃ messages, (run threeFiles {} printThree).result = .ok messages ∧
      (run oneFile {} { path := [111], multipart := true }).result = .ok messages) ∧
    (run oneFile {} { path := [111], multipart := true }).events.filterMap Event.readFailure? =
      [] := by
  have haccepted : printThree.Accepted threeFiles { multipart := true } := .defaults rfl rfl
  have haccepted' :
      Options.Accepted oneFile { path := [111], multipart := true } { multipart := true } :=
    .defaults rfl rfl
  have hfile : oneFile.Holds [111] (run threeFiles {} printThree).output := by
    rw [(shows_of_accepted haccepted).output, printThree, threeFiles_filesBelow]
    exact ⟨1, by cbv, by cbv, rfl⟩
  exact ⟨rfl, haccepted, haccepted', hfile, run_reprints rfl haccepted haccepted' hfile⟩

end Printout

end RecordFeed
