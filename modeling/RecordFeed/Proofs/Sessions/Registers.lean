/-
  A session kept in two registers.

  A `Feed` holds its situation and its scanner in one value, so that no feed can say that it is
  connected and hold nothing.  A `Session` keeps them apart: a register with the state that callers
  are told, and a register with the scanner, each of them written on its own wherever a session
  opens, loses or gives back a stream.  Nothing in its type keeps the two together.

  1. **Coherence** (`Coherent`).  The state is `connected` exactly when there is a scanner; every
     operation leaves it so, on each of its ways out.

  2. **Lockstep** (`ask_feed`, `run_feed`).  A coherent session goes the way of the feed that is
     read off it (`Session.feed`): the same answers, the same events, and what is left of one is
     read off what is left of the other.
-/
import RecordFeed.Proofs.Sessions.FeedCalls

namespace RecordFeed

/-- What callers are told about a session. -/
inductive SessionState where
  | disconnected
  | connected
  | permanentlyClosed
deriving Repr, DecidableEq

/-- The state once no handle is held.  What is closed for good stays closed. -/
def SessionState.withoutHandle : SessionState → SessionState
  | .connected => .disconnected
  | state => state

/-- A reader of streams, with what its callers are told in a register of its own. -/
structure Session (ω φ η : Type) where
  factory : φ
  unblock : ω → ω
  settings : Settings
  arena : Arena
  /-- what callers are told -/
  state : SessionState := .disconnected
  /-- what reads the stream that is held -/
  scanner : Option (Scanner η Delimiter) := none

namespace Session

variable {ω φ η : Type}

/-- A session that begins as a feed does. -/
def ofFeed (f : Feed ω φ η) : Session ω φ η :=
  { factory := f.factory, unblock := f.unblock, settings := f.settings, arena := f.arena }

/-! ## Operations

  They are written in the same order as the operations of a feed, with every write of a
  register where it happens. -/

/-- Takes the scanner out, if there is one, and then sees to the state. -/
def release (s : Session ω φ η) : Reply (Session ω φ η) Unit :=
  { answer := ()
    next := { s with scanner := none, state := s.state.withoutHandle }
    events := if s.scanner.isSome then [.dropped, .log .released] else [] }

/-- Looks at the scanner first, then at the state, and writes both when a stream is given. -/
def connect [StreamFactory ω φ η] (w : ω) (s : Session ω φ η) :
    Reply (Session ω φ η) (Except FeedError Unit) :=
  if s.scanner.isSome then { answer := .ok (), next := s }
  else if s.state = .permanentlyClosed then { answer := .error .closed, next := s }
  else
    let released := s.release
    let asked := StreamFactory.nextStream w s.factory
    let s := { released.next with factory := asked.next }
    let events := released.events ++ .asked :: asked.events
    match asked.answer with
    | .stream handle =>
      { answer := .ok ()
        next :=
          { s with
            scanner :=
              some (Scanner.fresh handle ⟨s.settings.delimiterBytes⟩ s.settings.maxTokenSize)
            state := .connected }
        events := events ++
          [.obtained, .log (.connected s.settings.multipart s.settings.maxTokenSize)] }
    | .exhausted =>
      { answer := .error .closed
        next := { s with state := .permanentlyClosed }
        events := events ++ [.log .exhausted] }
    | .failed error =>
      { answer := .error (.io error), next := s, events := events ++ [.log (.openFailed error)] }

/-- How a read ends, once the gathering of its message has. -/
def settle (s : Session ω φ η) (message : Message) :
    Ending → List Event → Reply (Session ω φ η) (Except FeedError Message)
  | .complete, events => { answer := .ok message, next := s, events }
  | .drained, events =>
    let released := s.release
    { answer := if message.isEmpty then .error .notConnected else .ok message
      next := released.next
      events := events ++ released.events ++ [.log (.drained message.size)] }
  | .failed error, events =>
    let released := s.release
    { answer := .error error
      next := released.next
      events := events ++ released.events ++ [.log (.readFailed error)] }

/-- Reads with the scanner, whatever the state says. -/
def read [ByteSource ω η] (w : ω) (s : Session ω φ η) :
    Reply (Session ω φ η) (Except FeedError Message) :=
  match s.scanner with
  | none => { answer := .error .notConnected, next := s }
  | some scanner =>
    let gathered := gather w s.settings.multipart scanner { arena := s.arena }
    settle { s with scanner := some gathered.next.1, arena := gathered.next.2.arena }
      gathered.next.2.message gathered.answer gathered.events

/-- Neither register is touched. -/
def acknowledge (failure : Option String) (s : Session ω φ η) :
    Reply (Session ω φ η) (Except FeedError Unit) :=
  match failure with
  | none => { answer := .ok (), next := { s with arena := s.arena.reset } }
  | some reason =>
    { answer := .ok (), next := s, events := [.log (.deliveryFailed reason s.arena.cursor)] }

/-- Says that it is closing, and gives the stream back. -/
def waitForClose (milliseconds : Nat) (s : Session ω φ η) :
    Reply (Session ω φ η) (Except FeedError Unit) :=
  { answer := .ok ()
    next := s.release.next
    events := .log (.closing milliseconds) :: s.release.events }

instance [StreamFactory ω φ η] [ByteSource ω η] : MessageReader ω (Session ω φ η) where
  connect := connect
  read := read
  acknowledge _ := acknowledge
  waitForClose _ := waitForClose
  closeAsync s := s.unblock

/-! ## The feed that is read off a session

  A session can be in states that no feed has.  The feed is read off the scanner first, so that
  there always is one, and coherence says when it tells the truth. -/

/-- The situation, by the scanner first and then by the state.  A session that is not coherent has
    one as well. -/
def link (s : Session ω φ η) : Link η :=
  match s.scanner with
  | some scanner => .connected scanner
  | none => if s.state = .permanentlyClosed then .closed else .idle

/-- The same session in the terms of a feed. -/
def feed (s : Session ω φ η) : Feed ω φ η :=
  { factory := s.factory, unblock := s.unblock, settings := s.settings, arena := s.arena,
    link := s.link }

/-- A feed that has not begun is read off the session that begins like it. -/
theorem feed_ofFeed {f : Feed ω φ η} (h : f.link = .idle) : (ofFeed f).feed = f := by
  obtain ⟨factory, unblock, settings, arena, link⟩ := f
  obtain rfl : link = .idle := h
  rfl

/-- The two registers say the same. -/
def Coherent (s : Session ω φ η) : Prop := s.state = .connected ↔ s.scanner.isSome = true

/-- At the start there is no scanner, and callers are told so. -/
theorem coherent_ofFeed (f : Feed ω φ η) : (ofFeed f).Coherent :=
  ⟨fun h => by simp [ofFeed] at h, fun h => by simp [ofFeed] at h⟩

variable {s : Session ω φ η}

/-- With a scanner, callers are told that it is connected. -/
theorem Coherent.state_of_scanner {scanner : Scanner η Delimiter} (h : s.Coherent)
    (hscanner : s.scanner = some scanner) : s.state = .connected :=
  h.mpr (by rw [hscanner]; rfl)

/-- Without one they are told one of the other two. -/
theorem Coherent.state_of_none (h : s.Coherent) (hscanner : s.scanner = none) :
    s.state = .disconnected ∨ s.state = .permanentlyClosed := by
  have hne : s.state ≠ .connected := by
    intro hconnected
    have hsome := h.mp hconnected
    rw [hscanner] at hsome
    simp at hsome
  cases hstate : s.state with
  | disconnected => exact Or.inl rfl
  | connected => exact absurd hstate hne
  | permanentlyClosed => exact Or.inr rfl

/-- Giving back leaves the registers in agreement whatever they said before. -/
theorem coherent_release (s : Session ω φ η) : s.release.next.Coherent := by
  show s.state.withoutHandle = .connected ↔ _
  cases s.state <;> simp [release, SessionState.withoutHandle]

/-- A coherent session gives back what its feed does. -/
theorem release_feed (h : s.Coherent) : s.feed.release = s.release.within feed := by
  obtain ⟨factory, unblock, settings, arena, state, scanner⟩ := s
  cases scanner with
  | some scanner =>
    -- coherence leaves one state for a scanner
    obtain rfl : state = .connected := h.state_of_scanner rfl
    rfl
  | none =>
    rcases h.state_of_none rfl with hstate | hstate <;>
    · obtain rfl : state = _ := hstate
      rfl

/-! ## Lockstep

  Each lemma says two things at once: the replies agree, and the registers still do.  The
  second is what the next operation needs for the first. -/

/-- The end of a read, in lockstep. -/
theorem settle_feed (h : s.Coherent) (message : Message) (ending : Ending) (events : List Event) :
    s.feed.settle message ending events = (s.settle message ending events).within feed ∧
      (s.settle message ending events).next.Coherent := by
  have hrelease := release_feed h
  cases ending with
  | complete => exact ⟨rfl, h⟩
  | drained =>
    refine ⟨?_, coherent_release s⟩
    simp only [Feed.settle, settle, hrelease]
    rfl
  | failed error =>
    refine ⟨?_, coherent_release s⟩
    simp only [Feed.settle, settle, hrelease]
    rfl

/-- Reading, in lockstep.  The session goes by its scanner and the feed by its link. -/
theorem read_feed [ByteSource ω η] (w : ω) (h : s.Coherent) :
    s.feed.read w = (s.read w).within feed ∧ (s.read w).next.Coherent := by
  cases hscanner : s.scanner with
  | none =>
    have hfree : s.feed.link.isConnected = false := by
      show s.link.isConnected = false
      unfold link
      rw [hscanner]
      dsimp only
      split <;> rfl
    have hread : s.read w = { answer := .error .notConnected, next := s } := by
      rw [read, hscanner]
    rw [Feed.read_not_connected hfree, hread]
    exact ⟨rfl, h⟩
  | some scanner =>
    have hlink : s.feed.link = .connected scanner := by
      show s.link = _
      rw [link, hscanner]
    let gathered := gather w s.settings.multipart scanner { arena := s.arena }
    let moved : Session ω φ η :=
      { s with scanner := some gathered.next.1, arena := gathered.next.2.arena }
    -- the scanner was replaced by a later one, and the state was left as it is
    have hmoved : moved.Coherent := by
      have hstate := h.state_of_scanner hscanner
      exact ⟨fun _ => rfl, fun _ => hstate⟩
    have hread : s.read w =
        moved.settle gathered.next.2.message gathered.answer gathered.events := by
      rw [read, hscanner]
    rw [Feed.read_connected hlink, hread]
    exact settle_feed hmoved _ _ _

section Connecting

variable [StreamFactory ω φ η]

/-- Connecting, in lockstep.  By what the registers say, and by what the factory answers. -/
theorem connect_feed (w : ω) (h : s.Coherent) :
    s.feed.connect w = (s.connect w).within feed ∧ (s.connect w).next.Coherent := by
  obtain ⟨factory, unblock, settings, arena, state, scanner⟩ := s
  cases scanner with
  | some scanner => exact ⟨rfl, h⟩
  | none =>
    rcases h.state_of_none rfl with hstate | hstate
    · obtain rfl : state = .disconnected := hstate
      rcases hasked : StreamFactory.nextStream w factory with ⟨answer, next, events⟩
      -- each answer of the factory writes the registers in its own way
      cases answer <;>
        simp [connect, Feed.connect, feed, link, release, hasked, Reply.within, Coherent,
          SessionState.withoutHandle, Feed.scannerOver]
    · obtain rfl : state = .permanentlyClosed := hstate
      exact ⟨rfl, h⟩

variable [ByteSource ω η]

/-- **One call, in lockstep.** A coherent session answers as its feed does and stays coherent.  One
    case for each request. -/
theorem ask_feed (call : Call ω) (h : s.Coherent) :
    call.ask s.feed = (call.ask s).within feed ∧ (call.ask s).next.Coherent := by
  obtain ⟨w, request⟩ := call
  cases request with
  | connect =>
    obtain ⟨hsame, hnext⟩ := connect_feed w h
    exact ⟨congrArg (Reply.map Answer.done) hsame, hnext⟩
  | read =>
    obtain ⟨hsame, hnext⟩ := read_feed w h
    exact ⟨congrArg (Reply.map Answer.message) hsame, hnext⟩
  | acknowledge failure => cases failure <;> exact ⟨rfl, h⟩
  | waitForClose milliseconds =>
    refine ⟨?_, coherent_release s⟩
    have hclose : s.feed.waitForClose milliseconds = (s.waitForClose milliseconds).within feed := by
      rw [Feed.waitForClose, release_feed h]
      rfl
    exact congrArg (Reply.map Answer.done) hclose

/-- **A run, in lockstep**, by induction on the calls. -/
theorem run_feed (calls : List (Call ω)) (h : s.Coherent) :
    run calls s.feed = (run calls s).within feed ∧ (run calls s).next.Coherent := by
  induction calls generalizing s with
  | nil => exact ⟨rfl, h⟩
  | cons call later ih =>
    obtain ⟨hfirst, hcoherent⟩ := ask_feed call h
    obtain ⟨hrest, hlast⟩ := ih hcoherent
    refine ⟨?_, hlast⟩
    rw [run, hfirst, Reply.within_next, hrest]
    rfl

end Connecting

end Session

end RecordFeed
