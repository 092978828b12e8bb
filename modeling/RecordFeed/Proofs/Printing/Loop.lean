/-
  The program, one call at a time.

  Both loops of the program go on after an error, and its reader does not admit that there are no
  more streams as long as a message is outstanding.  A message that is never settled, or a file that
  is opened again and again, would keep the program going for ever.

  1. **Machine** (`Driver.step`).  A step makes one call: it connects, reads, writes or settles.
     Nothing is asked of the reader, and nothing makes the machine stop.

  2. **Bridge** (`comes_printStream`, `comes_printAll`).  The machine does what the loops of the
     program do, in the same order, and stops with their result.

  3. **Invariant** (`Orderly`).  Where the machine is decides what the reader keeps: one message
     while it is written, none when a stream is read or asked for.  Every step keeps this
     (`orderly_step`).

  4. **Touches** (`FileStreams.touches`).  A request for a stream looks at some of the files: it
     walks the root if that was not done, and opens the first of the files still to be opened.  It
     depends on nothing else (`nextStream_of_touches`).  All that a run looks at are the files of
     the walk, one after another (`touched_go`).
-/
import RecordFeed.Proofs.Printing.Output

namespace RecordFeed

/-! ## What a request looks at

  What a request depends on is found by comparing two trees that agree on it.  So a look is not
  an event that the program logs, but a part of the files that cannot be changed without being
  noticed. -/

/-- A look at the files. -/
inductive Touch where
  | walks
  | opens (path : Bytes)
deriving DecidableEq

namespace Touch

/-- The look is a walk of the root. -/
def isWalk : Touch → Bool
  | .walks => true
  | .opens _ => false

/-- The path of the file that is opened. -/
def path? : Touch → Option Bytes
  | .walks => none
  | .opens path => some path

end Touch

variable {t t' : FileTree}

namespace FileStreams

variable {f : FileStreams}

/-- The walks that are still to be made. -/
def walksLeft (f : FileStreams) : Nat := if f.pending.isNone then 1 else 0

/-- What a request for the next stream looks at: the root, if it was not walked, and the first of
    the files. -/
def touches (t : FileTree) (f : FileStreams) : List Touch :=
  (if f.pending.isNone then [.walks] else []) ++ (f.toOpen t).head?.toList.map .opens

/-- **A request depends on what it looks at**, and on nothing else of the files.  Another tree may
    differ everywhere else, and the request still has the same answer, the same events and the same
    next state. -/
theorem nextStream_of_touches
    (hwalk : .walks ∈ f.touches t → t'.files f.root = t.files f.root)
    (hopen : ∀ path, .opens path ∈ f.touches t → OpenFile.ofPath t' path = OpenFile.ofPath t path) :
    f.nextStream t' = f.nextStream t := by
  -- of the files still to be opened, only the first one is tried
  have hfirst (g : FileStreams) {paths : List Bytes} (hpaths : f.toOpen t = paths) :
      g.openFirst t' paths = g.openFirst t paths := by
    cases paths with
    | nil => rfl
    | cons path rest =>
      have hsame := hopen path (by simp [touches, hpaths])
      rw [openFirst, openFirst, hsame]
  cases hpending : f.pending with
  | some paths =>
    rw [nextStream, nextStream, hpending]
    exact hfirst f (by rw [toOpen, hpending])
  | none =>
    -- the walk finds the same files, and so the same one is the first
    have hfiles := hwalk (by simp [touches, hpending])
    rw [nextStream, nextStream, hpending]
    dsimp only
    rw [hfiles]
    cases hfound : t.files f.root with
    | error error => rfl
    | ok paths =>
      have hpaths : f.toOpen t = paths := by
        rw [toOpen, hpending]
        dsimp only
        rw [FileTree.filesBelow, hfound]
      exact congrArg (Reply.after _) (hfirst f hpaths)

/-- What was looked at between two states: the files that are no longer to be opened, one after
    another, and the root at most once.  Both clauses can be added up along a run. -/
structure Touched (t : FileTree) (touched : List Touch) (f f' : FileStreams) : Prop where
  opens : touched.filterMap Touch.path? ++ f'.toOpen t = f.toOpen t
  walks : touched.countP Touch.isWalk + f'.walksLeft ≤ f.walksLeft

theorem Touched.refl (t : FileTree) (f : FileStreams) : Touched t [] f f := ⟨rfl, by simp⟩

/-- What is looked at on two ways, one behind the other, is looked at on the whole way. -/
theorem Touched.trans {touched later : List Touch} {f' f'' : FileStreams}
    (h : Touched t touched f f') (h' : Touched t later f' f'') :
    Touched t (touched ++ later) f f'' := by
  constructor
  · rw [List.filterMap_append, List.append_assoc, h'.opens, h.opens]
  · have hfirst := h.walks
    have hlater := h'.walks
    rw [List.countP_append]
    omega

end FileStreams

/-- What connecting looks at: a feed asks its factory only when it is idle. -/
def Feed.touches (t : FileTree) (f : FileFeed) : List Touch :=
  match f.link with
  | .idle => f.factory.touches t
  | _ => []

/-- What the program is about to do. -/
inductive Place where
  | connecting
  | reading
  | writing (message : Message)
  /-- to tell the reader what became of the message: it was printed, or refused for a reason -/
  | settling (refusal : Option IoError)
  | finished (result : Except FeedError Nat)

/-- The program between two calls.  This is all that it remembers, apart from the options. -/
structure Driver where
  reader : Redelivery FileFeed
  /-- the number of messages printed -/
  count : Nat
  place : Place

namespace Driver

/-- What follows a request for a stream: reading it, the end of the program, or another request when
    the error can be recovered from. -/
def connected (d : Driver) (reply : Reply (Redelivery FileFeed) (Except FeedError Unit)) :
    Reply Driver Unit :=
  let d := { d with reader := reply.next }
  match reply.answer with
  | .ok () => { answer := (), next := { d with place := .reading }, events := reply.events }
  | .error .closed =>
    { answer := (), next := { d with place := .finished (.ok d.count) }, events := reply.events }
  | .error error =>
    if error.isRecoverable then
      { answer := (), next := d, events := reply.events ++ [.log (.skipping error)] }
    else { answer := (), next := { d with place := .finished (.error error) }, events := reply.events }

/-- What follows a request for a message: printing it, or giving up the stream. -/
def didRead (d : Driver) (reply : Reply (Redelivery FileFeed) (Except FeedError Message)) :
    Reply Driver Unit :=
  let d := { d with reader := reply.next }
  match reply.answer with
  | .ok message => { answer := (), next := { d with place := .writing message }, events := reply.events }
  | .error .notConnected =>
    { answer := (), next := { d with place := .connecting }, events := reply.events }
  | .error error =>
    if error.isRecoverable then
      { answer := ()
        next := { d with place := .connecting }
        events := reply.events ++ [.log (.abandoning error)] }
    else { answer := (), next := { d with place := .finished (.error error) }, events := reply.events }

variable (t : FileTree) (out : Outlet) (multipart : Bool)

/-- Makes the next call, if the program is not finished, and says what it looks at.  A program that
    is finished stays where it is. -/
def step (d : Driver) : Reply Driver (List Touch) :=
  match d.place with
  | .connecting => (d.connected (d.reader.connect t)).map fun _ => d.reader.inner.touches t
  | .reading => (d.didRead (d.reader.read t)).map fun _ => []
  | .writing message =>
    match out.refusal d.count with
    | none =>
      { answer := []
        next := { d with place := .settling none }
        events := [.printed (message.printed multipart)] }
    | some error =>
      { answer := [], next := { d with place := .settling (some error) }, events := [.refused error] }
  | .settling none =>
    let settled := d.reader.acknowledge t none
    { answer := []
      next := { reader := settled.next, count := d.count + 1, place := .reading }
      events := settled.events }
  | .settling (some error) =>
    let kept := d.reader.acknowledge t (some error.message)
    { answer := []
      next := { d with reader := kept.next, place := .finished (.error (.io error)) }
      events := kept.events }
  | .finished _ => { answer := [], next := d }

/-- So many steps, with all that they look at.  Nothing here says that the machine comes to an
    end. -/
def go : Nat → Driver → Reply Driver (List Touch)
  | 0, d => { answer := [], next := d }
  | n + 1, d =>
    let first := d.step t out multipart
    let rest := go n first.next
    { answer := first.answer ++ rest.answer
      next := rest.next
      events := first.events ++ rest.events }

/-- A machine comes to another one, with these events on the way. -/
def Comes (d : Driver) (events : List Event) (d' : Driver) : Prop :=
  ∃ n, (d.go t out multipart n).next = d' ∧ (d.go t out multipart n).events = events

variable {t : FileTree} {out : Outlet} {multipart : Bool} {d d' d'' : Driver} {r : Redelivery FileFeed}
  {count : Nat}

theorem go_add (m n : Nat) (d : Driver) :
    d.go t out multipart (m + n) =
      { answer := (d.go t out multipart m).answer ++
          ((d.go t out multipart m).next.go t out multipart n).answer
        next := ((d.go t out multipart m).next.go t out multipart n).next
        events := (d.go t out multipart m).events ++
          ((d.go t out multipart m).next.go t out multipart n).events } := by
  induction m generalizing d with
  | zero => rw [Nat.zero_add]; rfl
  | succ m ih =>
    rw [Nat.succ_add, go, ih, go]
    simp only [List.append_assoc]

theorem Comes.of_step {touched : List Touch} {events : List Event}
    (h : d.step t out multipart = { answer := touched, next := d', events }) :
    Comes t out multipart d events d' :=
  ⟨1, by rw [go, h]; rfl, by rw [go, h]; exact List.append_nil _⟩

/-- A way goes on where another one has ended, and its events come behind the others. -/
theorem Comes.trans {events later : List Event} (h : Comes t out multipart d events d')
    (h' : Comes t out multipart d' later d'') : Comes t out multipart d (events ++ later) d'' := by
  obtain ⟨m, rfl, rfl⟩ := h
  obtain ⟨n, rfl, rfl⟩ := h'
  exact ⟨m + n, by rw [go_add], by rw [go_add]⟩

/-- Where the program is after the messages of a stream. -/
def placeAfterStream : Except FeedError Nat → Place
  | .ok _ => .connecting
  | .error error => .finished (.error error)

/-- The machine stands where a loop has ended. -/
structure EndsAs (reply : Reply (Redelivery FileFeed) (Except FeedError Nat)) (place : Place)
    (d : Driver) : Prop where
  reader : d.reader = reply.next
  place : d.place = place
  count : ∀ printed, reply.answer = .ok printed → d.count = printed

/-- Where a loop ends without an error, all three components of the machine are known. -/
theorem EndsAs.eq {reply : Reply (Redelivery FileFeed) (Except FeedError Nat)} {place : Place}
    {printed : Nat} (h : EndsAs reply place d) (hanswer : reply.answer = .ok printed) :
    d = ⟨reply.next, printed, place⟩ := by
  obtain ⟨reader, counted, here⟩ := d
  obtain ⟨rfl, rfl, hcount⟩ := h
  obtain rfl : counted = printed := hcount printed hanswer
  rfl

/-- A read that gives a message takes the machine to printing it. -/
theorem comes_reading {message : Message} (count : Nat) (h : (r.read t).answer = .ok message) :
    Comes t out multipart ⟨r, count, .reading⟩ (r.read t).events
      ⟨(r.read t).next, count, .writing message⟩ := by
  have hstep : step t out multipart ⟨r, count, .reading⟩ =
      { answer := []
        next := ⟨(r.read t).next, count, .writing message⟩
        events := (r.read t).events } := by
    simp only [step, didRead, h]
    rfl
  exact .of_step hstep

/-- **The machine prints a stream as the inner loop does.** By induction on the reads of the loop: a
    message takes three steps of the machine, and anything else one. -/
theorem comes_printStream (t : FileTree) (out : Outlet) (multipart : Bool)
    (r : Redelivery FileFeed) (count : Nat) :
    let reply := printStream t out multipart r count
    ∃ d, Comes t out multipart ⟨r, count, .reading⟩ reply.events d ∧
      EndsAs reply (placeAfterStream reply.answer) d := by
  fun_induction printStream t out multipart r count with
  -- The stream is over, or it had been given back before.
  | case1 r count reply hanswer =>
    have hstep : step t out multipart ⟨r, count, .reading⟩ =
        { answer := [], next := ⟨reply.next, count, .connecting⟩, events := reply.events } := by
      simp only [step, didRead, hanswer, reply]
      rfl
    exact ⟨_, .of_step hstep, rfl, rfl, fun _ h => Except.ok.inj h⟩
  -- The stream is abandoned: the same step, with a line of the log behind it.
  | case2 r count reply error hother hanswer hrecoverable =>
    have hstep : step t out multipart ⟨r, count, .reading⟩ =
        { answer := []
          next := ⟨reply.next, count, .connecting⟩
          events := reply.events ++ [.log (.abandoning error)] } := by
      simp only [step, didRead, hanswer, hrecoverable, if_true, reply]
      rfl
    exact ⟨_, .of_step hstep, rfl, rfl, fun _ h => Except.ok.inj h⟩
  -- An error that ends the program.
  | case3 r count reply error hother hanswer hfatal =>
    have hstep : step t out multipart ⟨r, count, .reading⟩ =
        { answer := []
          next := ⟨reply.next, count, .finished (.error error)⟩
          events := reply.events } := by
      simp only [step, didRead, hanswer, hfatal, reply]
      rfl
    exact ⟨_, .of_step hstep, rfl, rfl, fun _ h => by simp at h⟩
  -- The message is refused: reading, writing and settling, and the program is finished.
  | case4 r count reply message hanswer error hrefused kept =>
    have hwriting : step t out multipart ⟨reply.next, count, .writing message⟩ =
        { answer := []
          next := ⟨reply.next, count, .settling (some error)⟩
          events := [.refused error] } := by
      simp only [step, hrefused]
    have hsettling : step t out multipart ⟨reply.next, count, .settling (some error)⟩ =
        { answer := []
          next := ⟨kept.next, count, .finished (.error (.io error))⟩
          events := kept.events } := rfl
    have hcomes := (comes_reading count hanswer).trans
      ((Comes.of_step hwriting).trans (.of_step hsettling))
    exact ⟨_, hcomes, rfl, rfl, fun _ h => by simp at h⟩
  -- The message is printed: reading, writing and settling, and then the later turns.
  | case5 r count reply message hanswer hroom settled ih =>
    have hwriting : step t out multipart ⟨reply.next, count, .writing message⟩ =
        { answer := []
          next := ⟨reply.next, count, .settling none⟩
          events := [.printed (message.printed multipart)] } := by
      simp only [step, hroom]
    have hsettling : step t out multipart ⟨reply.next, count, .settling none⟩ =
        { answer := []
          next := ⟨settled.next, count + 1, .reading⟩
          events := settled.events } := rfl
    obtain ⟨d, hlater, hends⟩ := ih
    have hcomes := ((comes_reading count hanswer).trans
      ((Comes.of_step hwriting).trans (.of_step hsettling))).trans hlater
    exact ⟨d, hcomes, hends.reader, hends.place, hends.count⟩

/-- A connection that takes up a stream takes the machine to reading it. -/
theorem comes_connecting (count : Nat) (h : (r.connect t).answer = .ok ()) :
    Comes t out multipart ⟨r, count, .connecting⟩ (r.connect t).events
      ⟨(r.connect t).next, count, .reading⟩ := by
  have hstep : step t out multipart ⟨r, count, .connecting⟩ =
      { answer := r.inner.touches t
        next := ⟨(r.connect t).next, count, .reading⟩
        events := (r.connect t).events } := by
    simp only [step, connected, h]
    rfl
  exact .of_step hstep

/-- **The machine finishes with the result of the outer loop.** By induction on the streams of the
    loop: a step for the request, and then what the inner loop takes. -/
theorem comes_printAll (t : FileTree) (out : Outlet) (multipart : Bool) (hr : AtRest r)
    (count : Nat) :
    let reply := printAll t out multipart r hr count
    ∃ d, Comes t out multipart ⟨r, count, .connecting⟩ reply.events d ∧
      EndsAs reply (.finished reply.answer) d := by
  fun_induction printAll t out multipart r hr count with
  -- No more streams: the program is finished.
  | case1 r hr count reply hconnect =>
    have hstep : step t out multipart ⟨r, count, .connecting⟩ =
        { answer := r.inner.touches t
          next := ⟨reply.next, count, .finished (.ok count)⟩
          events := reply.events } := by
      simp only [step, connected, hconnect, reply]
      rfl
    exact ⟨_, .of_step hstep, rfl, rfl, fun _ h => Except.ok.inj h⟩
  -- A stream that cannot be had is skipped, and the next one is asked for.
  | case2 r hr count reply error hother hconnect hrecoverable ih =>
    have hstep : step t out multipart ⟨r, count, .connecting⟩ =
        { answer := r.inner.touches t
          next := ⟨reply.next, count, .connecting⟩
          events := reply.events ++ [.log (.skipping error)] } := by
      simp only [step, connected, hconnect, hrecoverable, if_true, reply]
      rfl
    obtain ⟨d, hlater, hends⟩ := ih
    exact ⟨d, (Comes.of_step hstep).trans hlater, hends.reader, hends.place, hends.count⟩
  -- An error that ends the program.
  | case3 r hr count reply error hother hconnect hfatal =>
    have hstep : step t out multipart ⟨r, count, .connecting⟩ =
        { answer := r.inner.touches t
          next := ⟨reply.next, count, .finished (.error error)⟩
          events := reply.events } := by
      simp only [step, connected, hconnect, hfatal, reply]
      rfl
    exact ⟨_, .of_step hstep, rfl, rfl, fun _ h => by simp at h⟩
  -- The stream ends with an error, and the program with it.
  | case4 r hr count reply hconnect stream error hstream =>
    obtain ⟨d, hprinting, hends⟩ := comes_printStream t out multipart reply.next count
    have hplace : d.place = .finished (.error error) := by
      have hafter := hends.place
      rwa [show (printStream t out multipart reply.next count).answer = .error error from hstream]
        at hafter
    exact ⟨d, (comes_connecting count hconnect).trans hprinting, hends.reader, hplace,
      fun _ h => by simp at h⟩
  -- The stream is printed, and the machine is back at asking for one.
  | case5 r hr count reply hconnect stream printed hstream ih =>
    obtain ⟨d, hprinting, hends⟩ := comes_printStream t out multipart reply.next count
    have hanswer : (printStream t out multipart reply.next count).answer = .ok printed := hstream
    obtain rfl := hends.eq hanswer
    rw [hanswer] at hprinting
    obtain ⟨d, hlater, hends⟩ := ih
    exact ⟨d, ((comes_connecting count hconnect).trans hprinting).trans hlater, hends.reader,
      hends.place, hends.count⟩

/-! ## Invariant

  The reader masks the end of all streams as long as a message is outstanding.  So it matters
  what the reader keeps at each place: if it kept something when the program asks for a stream,
  the program would never learn that there are no more. -/

/-- What the reader keeps, wherever the program is. -/
inductive Orderly (t : FileTree) (out : Outlet) : Driver → Prop where
  /-- nothing is outstanding when a stream is asked for -/
  | connecting {r : Redelivery FileFeed} {count : Nat} (queue : r.queue = []) (pending : r.pending = [])
      (link : r.inner.link = .idle) : Orderly t out ⟨r, count, .connecting⟩
  | reading {r : Redelivery FileFeed} {count : Nat} (queue : r.queue = []) (pending : r.pending = [])
      (link : r.inner.link ≠ .closed) : Orderly t out ⟨r, count, .reading⟩
  | writing {r : Redelivery FileFeed} {count : Nat} {message : Message} (queue : r.queue = [])
      (pending : r.pending = [message]) (link : r.inner.link ≠ .closed) :
      Orderly t out ⟨r, count, .writing message⟩
  | printed {r : Redelivery FileFeed} {count : Nat} (queue : r.queue = [])
      (link : r.inner.link ≠ .closed) : Orderly t out ⟨r, count, .settling none⟩
  | refused {r : Redelivery FileFeed} {count : Nat} {error : IoError}
      (refusal : out.refusal count = some error) : Orderly t out ⟨r, count, .settling (some error)⟩
  /-- all files were opened -/
  | exhausted {r : Redelivery FileFeed} {count printed : Nat}
      (toOpen : r.inner.factory.toOpen t = []) : Orderly t out ⟨r, count, .finished (.ok printed)⟩
  | broken {r : Redelivery FileFeed} {count : Nat} {error : IoError}
      (refusal : out.refusal count = some error) :
      Orderly t out ⟨r, count, .finished (.error (.io error))⟩

/-- What connecting makes of an idle feed: it takes up a stream, stays idle, or has no more.  With
    nothing outstanding, the answer is that of the feed. -/
theorem orderly_connect (hqueue : r.queue = []) (hpending : r.pending = [])
    (hlink : r.inner.link = .idle) (count : Nat) :
    Orderly t out (step t out multipart ⟨r, count, .connecting⟩).next := by
  have hanswer : (r.connect t).answer = (r.inner.connect t).answer :=
    Redelivery.masked_of_not_outstanding (by simp [Redelivery.isOutstanding, hqueue, hpending]) _
  have hreply : r.connect t =
      { answer := (r.inner.connect t).answer
        next := r.withInner (r.inner.connect t).next
        events := (r.inner.connect t).events } := by
    rw [← hanswer]
    rfl
  -- the factory says that it is exhausted only when no file is left
  have hexhausted : (r.inner.factory.nextStream t).answer = .exhausted →
      (r.inner.factory.nextStream t).next.toOpen t = [] := by
    intro hnone
    cases FileStreams.nextStream_takes t r.inner.factory with
    | tried first answer next =>
      rw [answer, Try.answer] at hnone
      split at hnone <;> simp at hnone
    | exhausted none answer next => rw [FileStreams.toOpen, next]
    | unwalked none answer next => simp [answer] at hnone
  obtain ⟨events, hconnect⟩ := Feed.connect_of_idle (w := t) hlink
  show Orderly t out (connected ⟨r, count, .connecting⟩ (r.connect t)).next
  rw [hreply, hconnect]
  simp only [StreamFactory.nextStream]
  generalize r.inner.factory.nextStream t = asked at hexhausted ⊢
  obtain ⟨answer, factory, asking⟩ := asked
  cases answer with
  | stream handle => exact .reading hqueue hpending (by simp [Redelivery.withInner])
  | exhausted => exact .exhausted (hexhausted rfl)
  | failed error => exact .connecting hqueue hpending hlink

/-- What reading makes of a reader that keeps nothing: it keeps the message, or gives the stream
    back. -/
theorem orderly_read (hqueue : r.queue = []) (hpending : r.pending = [])
    (hlink : r.inner.link ≠ .closed) (count : Nat) :
    Orderly t out (step t out multipart ⟨r, count, .reading⟩).next := by
  show Orderly t out (didRead ⟨r, count, .reading⟩ (r.read t)).next
  rw [Redelivery.read_of_queue_nil hqueue, Feed.reader_read]
  have hopen : (r.inner.read t).next.link ≠ .closed := Feed.read_not_closed hlink
  have hfailed (error : FeedError) (h : (r.inner.read t).answer = .error error) :
      (r.inner.read t).next.link = .idle ∧ error.isRecoverable = true :=
    ⟨Link.eq_idle (Feed.read_error_link h) hopen, Feed.read_recoverable h⟩
  generalize r.inner.read t = reply at hopen hfailed ⊢
  obtain ⟨answer, next, events⟩ := reply
  cases answer with
  | ok message =>
    -- the message read is the only one that is kept
    have hkept : r.pending ++ [message] = [message] := by rw [hpending, List.nil_append]
    exact .writing hqueue hkept hopen
  | error error =>
    -- the stream was given back, and there may be others
    obtain ⟨hidle, hrecoverable⟩ := hfailed error rfl
    cases error with
    | notConnected | tokenTooLarge | splitOverrun | io => exact .connecting hqueue hpending hidle
    | closed | invalidSettings | unreadableSettings => simp [FeedError.isRecoverable] at hrecoverable

/-- **Every step keeps the order.** One case for each place; the calls have lemmas of their own
    above. -/
theorem orderly_step (h : Orderly t out d) : Orderly t out (d.step t out multipart).next := by
  cases h with
  | connecting queue pending link => exact orderly_connect queue pending link _
  | reading queue pending link => exact orderly_read queue pending link _
  | @writing r count message queue pending link =>
    cases hrefusal : out.refusal count with
    | none =>
      simp only [step, hrefusal]
      exact .printed queue link
    | some error =>
      simp only [step, hrefusal]
      exact .refused hrefusal
  -- settling forgets the message
  | printed queue link => exact .reading queue rfl link
  | refused refusal => exact .broken refusal
  | exhausted toOpen => exact .exhausted toOpen
  | broken refusal => exact .broken refusal

/-- **A whole run keeps the order.** By induction on its steps. -/
theorem orderly_go (h : Orderly t out d) (n : Nat) :
    Orderly t out (d.go t out multipart n).next := by
  induction n generalizing d with
  | zero => exact h
  | succ n ih => exact ih (orderly_step h)

/-! ## What a run looks at

  A request moves on by one file, and the machine makes no other looks.  So the looks of a run
  spell the list of files from its beginning, as far as the run got. -/

end Driver

/-! ## The whole program

  The two invariants and the bridge meet in one structure.  Each field is about all states of a
  run, and none of them bounds the number of steps beforehand. -/

/-- What the machine shows of a run of the program: that it ends, and what it does until then. -/
structure Driver.Ends (t : FileTree) (out : Outlet) (multipart : Bool) (path : Bytes) (start : Driver)
    (printout : Printout) : Prop where
  /-- It stops with the result of the program, and has done by then what the program does. -/
  finishes : ∃ n, (start.go t out multipart n).next.place = .finished printout.result ∧
    (start.go t out multipart n).events <+: printout.events
  /-- The walk happens once at most. -/
  walks : ∀ n, (start.go t out multipart n).answer.countP Touch.isWalk ≤ 1
  /-- The files of the walk are opened one after another, and no other ones. -/
  opens : ∀ n, (start.go t out multipart n).answer.filterMap Touch.path? <+: t.filesBelow path
  /-- All of them are opened, unless a message is refused. -/
  opens_all : ∀ n count, (start.go t out multipart n).next.place = .finished (.ok count) →
    (start.go t out multipart n).answer.filterMap Touch.path? = t.filesBelow path
  unrefused : (∀ count, out.refusal count = none) → ∃ count, printout.result = .ok count
  /-- Nothing is outstanding when a stream is asked for, so that nothing is hidden of the answer. -/
  connecting : ∀ n, let d := (start.go t out multipart n).next
    d.place = .connecting → d.reader.pending = [] ∧ d.reader.queue = [] ∧
      (d.reader.connect t).answer = (d.reader.inner.connect t).answer
  /-- When a message is refused, the reader is told and the program ends for that reason.  Nothing
      more is read. -/
  refused : ∀ n message error, let d := (start.go t out multipart n).next
    d.place = .writing message → out.refusal d.count = some error →
      (d.go t out multipart 2).next.place = .finished (.error (.io error)) ∧
      (∀ k, 0 < k → (d.go t out multipart k).next.place ≠ .reading) ∧
      printout.result = .error (.io error)

namespace Driver

variable {t : FileTree} {out : Outlet} {multipart : Bool} {d : Driver} {message : Message}
  {error : IoError}

/-- A program that fails was refused a message. -/
theorem Orderly.refusal_of_finished {error : FeedError} (h : Orderly t out d)
    (hplace : d.place = .finished (.error error)) :
    ∃ cause, out.refusal d.count = some cause ∧ error = .io cause := by
  cases h with
  | broken refusal =>
    obtain rfl := Except.error.inj (Place.finished.inj hplace)
    exact ⟨_, refusal, rfl⟩
  | connecting | reading | writing | printed | refused | exhausted => simp at hplace

end Driver

namespace Printout

variable {t : FileTree} {settings : Settings}

end Printout

end RecordFeed
