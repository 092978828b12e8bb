/-
  Every handle is given back once.

  A session obtains handles from its factory and drops them again.  Its registers are written on
  every way out of an operation, so the question is whether one of them forgets a handle, or keeps a
  state that is no longer true.

  1. **Marks** (`Event.mark?`).  Four kinds of events tell of handles: a handle is obtained or
     dropped, and the log says so.  Scanning leaves none of them (`Scanner.Leaves.unmarked`).

  2. **Rounds** (`rounds_of_ask`, `rounds_of_run`).  The marks of a run are whole rounds (obtained,
     said so, dropped, said so) and at the end the first half of one more if a stream is held then.
     One case for each way out of an operation, then an induction on the calls.

  3. **Accounts** (`Accounted`).  What is asked about handles is read off the rounds: their numbers
     balance, and the two lines of the log take turns.

  The drop that comes with a session itself going away is nothing that an operation does, and is not
  among the events.
-/
import RecordFeed.Proofs.Messages.Visits
import RecordFeed.Proofs.Records.Conduct
import RecordFeed.Proofs.Sessions.Registers
import RecordFeed.Proofs.Sessions.Watch

namespace RecordFeed

/-! ## Marks

  Events are many, and four kinds of them count here.  They are picked out, and the rest of the
  argument is about lists of these marks. -/

/-- What the events of a run tell of handles. -/
inductive HandleMark where
  | obtained
  /-- the log says that a stream was connected -/
  | connectedLine
  | dropped
  /-- the log says that a handle was released -/
  | releasedLine
deriving Repr, DecidableEq

/-- What an event tells of handles. -/
def Event.mark? : Event → Option HandleMark
  | .obtained => some .obtained
  | .dropped => some .dropped
  | .log (.connected _ _) => some .connectedLine
  | .log .released => some .releasedLine
  | _ => none

namespace HandleMark

/-- It stands in the log. -/
def IsLine : HandleMark → Bool
  | .connectedLine | .releasedLine => true
  | .obtained | .dropped => false

/-- The marks among some events, in order. -/
def among (events : List Event) : List HandleMark := events.filterMap Event.mark?

/-- Marks are read off event by event, so a run that goes on adds its marks behind. -/
@[simp] theorem among_append (before after : List Event) :
    among (before ++ after) = among before ++ among after := List.filterMap_append

/-- A stream is taken up. -/
def opening : List HandleMark := [.obtained, .connectedLine]

/-- A stream is given back. -/
def closing : List HandleMark := [.dropped, .releasedLine]

/-- Streams that are taken up and given back, so many of them.  In each round the handle is obtained
    before the log says so, and dropped before the log says that. -/
def rounds : Nat → List HandleMark
  | 0 => []
  | n + 1 => opening ++ closing ++ rounds n

theorem rounds_add (m n : Nat) : rounds (m + n) = rounds m ++ rounds n := by
  induction m with
  | zero => rw [Nat.zero_add]; rfl
  | succ m ih =>
    rw [Nat.succ_add, rounds, ih, rounds]
    simp only [List.append_assoc]

/-- Every mark is met once in a round.  By induction on the rounds. -/
theorem count_rounds (mark : HandleMark) (n : Nat) : (rounds n).count mark = n := by
  induction n with
  | zero => rfl
  | succ n ih =>
    have hround : (opening ++ closing).count mark = 1 := by cases mark <;> rfl
    rw [rounds, List.count_append, ih]
    omega

/-- `first` and `second` by turns, `first` to begin with, so many of them. -/
def byTurns (first second : HandleMark) : Nat → List HandleMark
  | 0 => []
  | n + 1 => first :: byTurns second first n

/-- Of each round and of the half that may follow, a selection keeps one mark of the opening and one
    of the closing: these two by turns.  By induction on the rounds. -/
theorem filter_rounds {p : HandleMark → Bool} {first second : HandleMark}
    (hopening : opening.filter p = [first]) (hclosing : closing.filter p = [second])
    (n : Nat) (held : Bool) :
    (rounds n ++ if held then opening else []).filter p =
      byTurns first second (2 * n + if held then 1 else 0) := by
  induction n with
  | zero =>
    cases held with
    | false => rfl
    | true => exact hopening
  | succ n ih =>
    -- one round more is two marks more
    have htwo : 2 * (n + 1) + (if held then 1 else 0) = 2 * n + (if held then 1 else 0) + 2 := by
      omega
    rw [rounds, List.append_assoc, List.filter_append, ih, List.filter_append, hopening, hclosing,
      htwo]
    rfl

end HandleMark

open HandleMark

/-- Scanning leaves no marks. -/
theorem Scanner.Leaves.unmarked {η π : Type} {s t : Scanner η π} {events : List Event}
    (h : s.Leaves t events) : among events = [] := by
  apply List.filterMap_eq_nil_iff.mpr
  intro e he
  have hscanning := h.scanning e he
  cases e with
  | offered room => rfl
  | consulted window atEof => rfl
  | asked | obtained | dropped | printed bytes | refused error | log entry =>
    exact absurd hscanning id

namespace Session

variable {ω φ η : Type}

/-! ## Rounds

  Each operation is accounted for on the session itself, with its two registers, and not on the
  feed that is read off it. -/

/-- How many handles are held. -/
def held (s : Session ω φ η) : Nat := if s.scanner.isSome then 1 else 0

/-- The half of a round that is open.  It is closed by giving the stream back. -/
def half (s : Session ω φ η) : List HandleMark := if s.scanner.isSome then opening else []

/-- Between two sessions so many streams were given back: with the half that was open before and
    the one that is open after, the marks make so many rounds, and the factory gave the handles
    that make up the balance.  `n` is found by the proofs; a claim about marks does not need to
    know it. -/
structure Turns (s t : Session ω (Watched φ η) η) (events : List Event) (n : Nat) : Prop where
  marks : s.half ++ among events = rounds n ++ t.half
  balance : t.factory.given + s.held = s.factory.given + n + t.held

variable {s t u : Session ω (Watched φ η) η}

/-- The half that one stretch leaves open is the half that the next one finds. -/
theorem Turns.trans {before after : List Event} {m n : Nat} (h : s.Turns t before m)
    (h' : t.Turns u after n) : s.Turns u (before ++ after) (m + n) := by
  constructor
  · rw [among_append, ← List.append_assoc, h.marks, List.append_assoc, h'.marks, rounds_add,
      List.append_assoc]
  · have hfirst := h.balance
    have hsecond := h'.balance
    omega

/-- Where nothing is marked, the scanner stays held or stays away, and the factory is left alone, no
    stream is given back.  Most ways out of an operation are of this kind. -/
theorem Turns.of_still {events : List Event} (hunmarked : among events = [])
    (hscanner : t.scanner.isSome = s.scanner.isSome) (hfactory : t.factory = s.factory) :
    s.Turns t events 0 := by
  have hhalf : t.half = s.half := by rw [half, half, hscanner]
  have hheld : t.held = s.held := by rw [held, held, hscanner]
  constructor
  · rw [hunmarked, hhalf, List.append_nil]
    rfl
  · rw [hfactory, hheld]
    omega

/-- Giving back closes the half that is open. -/
theorem rounds_of_release (s : Session ω (Watched φ η) η) :
    s.Turns s.release.next s.release.events s.held := by
  obtain ⟨factory, unblock, settings, arena, state, scanner⟩ := s
  cases scanner with
  | none => exact ⟨rfl, rfl⟩
  | some scanner => exact ⟨rfl, rfl⟩

/-- The end of a read closes the half if the stream is given back. -/
theorem rounds_of_settle (s : Session ω (Watched φ η) η) (message : Message) (ending : Ending)
    {events : List Event} (hunmarked : among events = []) :
    ∃ n, s.Turns (s.settle message ending events).next (s.settle message ending events).events n := by
  have hstill : s.Turns s events 0 := Turns.of_still hunmarked rfl rfl
  -- the log line at the end is not about handles
  have hline (entry : LogEntry) (hentry : (Event.log entry).mark? = none) :
      s.release.next.Turns s.release.next [.log entry] 0 := by
    refine Turns.of_still ?_ rfl rfl
    rw [among, List.filterMap_cons_none hentry]
    rfl
  cases ending with
  | complete => exact ⟨0, hstill⟩
  | drained =>
    have hrelease := hstill.trans (rounds_of_release s)
    exact ⟨_, hrelease.trans (hline (.drained message.size) rfl)⟩
  | failed error =>
    have hrelease := hstill.trans (rounds_of_release s)
    exact ⟨_, hrelease.trans (hline (.readFailed error) rfl)⟩

/-- Gathering marks nothing, so a read is as its end is. -/
theorem rounds_of_read [ByteSource ω η] (w : ω) (s : Session ω (Watched φ η) η) :
    ∃ n, s.Turns (s.read w).next (s.read w).events n := by
  unfold read
  cases hscanner : s.scanner with
  | none => exact ⟨0, Turns.of_still rfl rfl rfl⟩
  | some scanner =>
    let gathered := gather w s.settings.multipart scanner { arena := s.arena }
    let moved : Session ω (Watched φ η) η :=
      { s with scanner := some gathered.next.1, arena := gathered.next.2.arena }
    have hunmarked : among gathered.events = [] := (gather_leaves w _ scanner _).unmarked
    -- the scanner moves on, but there is one as before
    have hmoved : s.Turns moved [] 0 := by
      refine Turns.of_still rfl ?_ rfl
      rw [hscanner]
      rfl
    obtain ⟨n, hsettle⟩ := rounds_of_settle moved gathered.next.2.message gathered.answer hunmarked
    exact ⟨_, hmoved.trans hsettle⟩

variable [StreamFactory ω φ η]

/-- Where no handle is held and more streams may come, the factory is asked.  The state in between
    is not `connected`, whatever it was before. -/
theorem connect_of_free {φ : Type} [StreamFactory ω φ η] {w : ω} {s : Session ω φ η}
    (hscanner : s.scanner = none) (hstate : s.state ≠ .permanentlyClosed) :
    ∃ state, s.connect w =
      match StreamFactory.nextStream w s.factory with
      | { answer := .stream handle, next := factory, events } =>
        { answer := .ok ()
          next :=
            { s with
              factory
              scanner :=
                some (Scanner.fresh handle ⟨s.settings.delimiterBytes⟩ s.settings.maxTokenSize)
              state := .connected }
          events := .asked :: events ++
            [.obtained, .log (.connected s.settings.multipart s.settings.maxTokenSize)] }
      | { answer := .exhausted, next := factory, events } =>
        { answer := .error .closed
          next := { s with factory, state := .permanentlyClosed }
          events := .asked :: events ++ [.log .exhausted] }
      | { answer := .failed error, next := factory, events } =>
        { answer := .error (.io error)
          next := { s with factory, state }
          events := .asked :: events ++ [.log (.openFailed error)] } := by
  obtain ⟨factory, unblock, settings, arena, state, scanner⟩ := s
  obtain rfl : scanner = none := hscanner
  refine ⟨state.withoutHandle, ?_⟩
  rcases hasked : StreamFactory.nextStream w factory with ⟨answer, next, events⟩
  unfold connect
  rw [if_neg (by simp), if_neg hstate]
  cases answer <;> simp only [release, hasked] <;> rfl

/-- A session that connects is given a handle and marks it, or is given none. -/
theorem rounds_of_connect (w : ω) (s : Session ω (Watched φ η) η) :
    s.Turns (s.connect w).next (s.connect w).events 0 := by
  by_cases hheld : s.scanner.isSome = true
  · -- held already
    have hsame : s.connect w = { answer := .ok (), next := s } := if_pos hheld
    rw [hsame]
    exact Turns.of_still rfl rfl rfl
  have hscanner : s.scanner = none := by simpa using hheld
  by_cases hclosed : s.state = .permanentlyClosed
  · have hsame : s.connect w = { answer := .error .closed, next := s } := by
      rw [connect, if_neg hheld, if_pos hclosed]
    rw [hsame]
    exact Turns.of_still rfl rfl rfl
  obtain ⟨state, hconnect⟩ := connect_of_free (w := w) hscanner hclosed
  rw [hconnect]
  obtain ⟨⟨factory, answers, words⟩, unblock, settings, arena, state', scanner⟩ := s
  obtain rfl : scanner = none := hscanner
  rcases hasked : StreamFactory.nextStream w factory with ⟨answer, next, spoken⟩
  -- the book of answers grows by the one that was given, and a stream is counted in it
  simp only [StreamFactory.nextStream, hasked]
  cases answer with
  | stream handle => exact ⟨rfl, List.countP_append⟩
  | exhausted => exact ⟨rfl, List.countP_append⟩
  | failed error => exact ⟨rfl, List.countP_append⟩

variable [ByteSource ω η]

/-- **One call**: the streams that it gives back make whole rounds with what was open before and
    what is open after.  By the request; only giving back, and the end of a read, can have `n` other
    than zero. -/
theorem rounds_of_ask (call : Call ω) (s : Session ω (Watched φ η) η) :
    ∃ n, s.Turns (call.ask s).next (call.ask s).events n := by
  obtain ⟨w, request⟩ := call
  cases request with
  | connect => exact ⟨0, rounds_of_connect w s⟩
  | read => exact rounds_of_read w s
  | acknowledge failure =>
    refine ⟨0, ?_⟩
    cases failure <;> exact Turns.of_still rfl rfl rfl
  | waitForClose milliseconds =>
    have hclosing : s.Turns s [.log (.closing milliseconds)] 0 := Turns.of_still rfl rfl rfl
    exact ⟨_, hclosing.trans (rounds_of_release s)⟩

/-- **A run**, by induction on the calls. -/
theorem rounds_of_run (calls : List (Call ω)) (s : Session ω (Watched φ η) η) :
    ∃ n, s.Turns (run calls s).next (run calls s).events n := by
  induction calls generalizing s with
  | nil => exact ⟨0, Turns.of_still rfl rfl rfl⟩
  | cons call later ih =>
    obtain ⟨m, hfirst⟩ := rounds_of_ask call s
    obtain ⟨n, hrest⟩ := ih (call.ask s).next
    exact ⟨m + n, hfirst.trans hrest⟩

/-! ## Accounts

  With no stream held to begin with, the marks are whole rounds and at most a half.  What is
  asked about them is a matter of counting and selecting in such a list. -/

/-- The accounts of a session that began without a stream: its registers, what its factory gave, and
    the marks of its run. -/
structure Accounted (s : Session ω (Watched φ η) η) (marks : List HandleMark) : Prop where
  /-- the state is connected exactly when there is a scanner -/
  coherent : s.state = .connected ↔ s.scanner.isSome = true
  /-- every handle that the factory gave was dropped, or it is the one that is held -/
  balance : s.factory.given = marks.count .dropped + if s.state = .connected then 1 else 0
  /-- the handles obtained are those that the factory gave, one line of the log for each -/
  obtained : marks.count .obtained = s.factory.given ∧ marks.count .connectedLine = s.factory.given
  /-- one line of the log for each handle dropped -/
  released : marks.count .releasedLine = marks.count .dropped
  /-- no handle is obtained before the one obtained last was dropped -/
  one_at_a_time : marks.filter (fun mark => !mark.IsLine) =
    byTurns .obtained .dropped (s.factory.given + marks.count .dropped)
  /-- the lines of the log take turns -/
  lines_alternate : marks.filter IsLine =
    byTurns .connectedLine .releasedLine (s.factory.given + marks.count .dropped)

omit [StreamFactory ω φ η] [ByteSource ω η] in
/-- The accounts are read off the rounds. -/
theorem accounted_of_turns {events : List Event} {n : Nat} (hturns : s.Turns t events n)
    (hstart : s.scanner = none) (hgiven : s.factory.given = 0) (hcoherent : t.Coherent) :
    Accounted t (among events) := by
  have hmarks : among events = rounds n ++ t.half := by
    have hopen : s.half = [] := by rw [half, hstart]; rfl
    rw [← hturns.marks, hopen, List.nil_append]
  have hbalance : t.factory.given = n + t.held := by
    have hheld : s.held = 0 := by rw [held, hstart]; rfl
    have hsum := hturns.balance
    omega
  -- each mark once in a round, and once more if it is in the open half
  have hcount (mark : HandleMark) : (among events).count mark = n + t.half.count mark := by
    rw [hmarks, List.count_append, count_rounds]
  have hopening : t.half.count .obtained = t.held ∧ t.half.count .connectedLine = t.held := by
    unfold half held
    cases t.scanner.isSome <;> exact ⟨rfl, rfl⟩
  have hclosing : t.half.count .dropped = 0 ∧ t.half.count .releasedLine = 0 := by
    unfold half
    cases t.scanner.isSome <;> exact ⟨rfl, rfl⟩
  have hdropped : (among events).count .dropped = n := by rw [hcount, hclosing.1, Nat.add_zero]
  have htotal : t.factory.given + (among events).count .dropped =
      2 * n + if t.scanner.isSome then 1 else 0 := by
    rw [hdropped, hbalance, held]
    omega
  refine ⟨hcoherent, ?_, ⟨?_, ?_⟩, ?_, ?_, ?_⟩
  · -- callers are told of a handle exactly when one is held
    have hstate : (if t.state = .connected then 1 else 0) = t.held := by
      by_cases hconnected : t.state = .connected
      · rw [if_pos hconnected, held, if_pos (hcoherent.mp hconnected)]
      · rw [if_neg hconnected, held, if_neg (fun h => hconnected (hcoherent.mpr h))]
    rw [hdropped, hstate, hbalance]
  · rw [hcount, hopening.1, hbalance]
  · rw [hcount, hopening.2, hbalance]
  · rw [hcount, hclosing.2, Nat.add_zero, hdropped]
  · rw [htotal, hmarks]
    exact filter_rounds rfl rfl n t.scanner.isSome
  · rw [htotal, hmarks]
    exact filter_rounds rfl rfl n t.scanner.isSome

/-- While a handle is held, no operation asks the factory.  This is about the register with the
    state, which callers see.  It is the scanner that keeps `connect` from asking, and coherence
    ties the two. -/
theorem factory_of_connected (call : Call ω) (hcoherent : s.Coherent) (h : s.state = .connected) :
    (call.ask s).next.factory = s.factory := by
  obtain ⟨scanner, hscanner⟩ := Option.isSome_iff_exists.mp (hcoherent.mp h)
  have hlink : s.feed.link = .connected scanner := by
    show s.link = _
    rw [link, hscanner]
  have hfactory := (Feed.ask_of_connected call hlink).1
  rw [(ask_feed call hcoherent).1] at hfactory
  exact hfactory

/-- **Every handle is given back once.**  Whatever the factory answers and reports, whatever the
    streams do and whatever is asked of a feed: kept in two registers and with its factory under
    watch it goes the same way, its accounts are in order after every operation, and as long as it
    says that it is connected it does not ask its factory. -/
theorem handles_accounted {factory : φ} {unblock : ω → ω} {settings : Settings} {f : Feed ω φ η}
    (hmake : Feed.make factory unblock settings = .ok f) (calls : List (Call ω)) :
    let kept := run calls (ofFeed f.watched)
    Feed.SaysOf f.watched (kept.within feed) (run calls f) ∧
    Accounted kept.next (among kept.events) ∧
    ∀ call : Call ω, kept.next.state = .connected →
      (call.ask kept.next).next.factory = kept.next.factory := by
  intro kept
  have hidle : f.watched.link = .idle := by
    show f.link = .idle
    exact Feed.link_of_make hmake
  obtain ⟨hsame, hcoherent⟩ := run_feed calls (coherent_ofFeed f.watched)
  refine ⟨?_, ?_, fun call hconnected => factory_of_connected call hcoherent hconnected⟩
  · rw [feed_ofFeed hidle] at hsame
    rw [← hsame]
    exact Feed.run_unwatched calls f.watched
  · -- no handle is held at the start, and the factory has given none
    obtain ⟨n, hturns⟩ := rounds_of_run calls (ofFeed f.watched)
    exact accounted_of_turns hturns rfl rfl hcoherent

/-- A stream that fails while it is held, a refusal, and a stream that is read to its end: two
    handles were obtained and dropped. -/
theorem handles_accounted_two_streams :
    Feed.make Feed.twoStreams Switch.throw { multipart := true } = .ok Feed.overTwoStreams ∧
    (let kept := run Feed.readTwoStreams (ofFeed Feed.overTwoStreams.watched)
     kept.next.factory.given = 2 ∧ (among kept.events).count .dropped = 2 ∧
     Accounted kept.next (among kept.events)) :=
  have hmake : Feed.make Feed.twoStreams Switch.throw { multipart := true } =
    .ok Feed.overTwoStreams := rfl
  ⟨hmake, by decide +kernel, by decide +kernel,
    (handles_accounted hmake Feed.readTwoStreams).2.1⟩

end Session

end RecordFeed
