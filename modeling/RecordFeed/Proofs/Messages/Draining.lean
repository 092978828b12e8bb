/-
  Reading a feed to its end.

  A caller that wants everything reads until a read fails, connects again, and goes on so until
  there is nothing left to connect to.

  1. **One stream** (`readOut`).  The messages read before the first read that fails, and what this
     read says.  They are the messages of the stream that is held, and how its scan ends
     (`readOut_spec`).

  2. **Connecting** (`TakesUp`).  All that connecting can do to a feed over scripted streams.  It
     changes nothing of the messages ahead (`ahead_connect`).

  3. **All streams** (`drain`).  Every round reads what the stream that is held still has, so that
     in the end all messages ahead have been read, and no others (`drain_eq_ahead`).
-/
import RecordFeed.Proofs.Messages.InOrder

namespace RecordFeed

/-! ## One stream

  The recursion of `readOut` is the caller's loop.  It ends because every message takes
  something out of what the feed has not read yet (`read_unread_lt`). -/

/-- What is read until a read fails. -/
structure Readout (ρ : Type) where
  messages : List Message
  /-- what the read says that fails -/
  failure : FeedError
  next : ρ

/-- The same with one more message before it. -/
def Readout.cons {ρ : Type} (message : Message) (out : Readout ρ) : Readout ρ :=
  { out with messages := message :: out.messages }

namespace Feed

section Reading

variable {ω φ η : Type} [ByteSource ω η] {w : ω} {f : Feed ω φ η} {scanner : Scanner η Delimiter}

/-- Reads until a read fails. -/
def readOut (w : ω) (f : Feed ω φ η) : Readout (Feed ω φ η) :=
  match _h : (f.read w).answer with
  | .ok message => (readOut w (f.read w).next).cons message
  | .error failure => { messages := [], failure, next := (f.read w).next }
termination_by f.unread w
decreasing_by exact read_unread_lt _h

/-- The equation of `readOut` for a read that fails. -/
theorem readOut_of_error {failure : FeedError} (h : (f.read w).answer = .error failure) :
    f.readOut w = { messages := [], failure, next := (f.read w).next } := by
  rw [readOut]
  split
  · rename_i hanswer
    cases hanswer.symm.trans h
  · rename_i hanswer
    obtain rfl := Except.error.inj (hanswer.symm.trans h)
    rfl

/-- Of a feed that holds no stream nothing is read. -/
theorem readOut_of_not_connected (h : f.link.isConnected = false) :
    f.readOut w = { messages := [], failure := .notConnected, next := f } := by
  have hread := read_not_connected (w := w) h
  have herror : (f.read w).answer = .error .notConnected := by rw [hread]
  rw [readOut_of_error herror, hread]

/-- No stream is held after a read that fails.  By induction on the reads. -/
theorem readOut_not_connected (w : ω) (f : Feed ω φ η) :
    (f.readOut w).next.link.isConnected = false := by
  fun_induction readOut w f with
  | case1 f message hanswer ih => exact ih
  | case2 f failure hanswer => exact read_error_link hanswer

/-- Reading takes up no stream, so the factory is left alone. -/
@[simp] theorem readOut_factory (w : ω) (f : Feed ω φ η) :
    (f.readOut w).next.factory = f.factory := by
  fun_induction readOut w f with
  | case1 f message hanswer ih => exact ih.trans (read_factory w f)
  | case2 f failure hanswer => exact read_factory w f

/-- Nor does it change the settings. -/
@[simp] theorem readOut_settings (w : ω) (f : Feed ω φ η) :
    (f.readOut w).next.settings = f.settings := by
  fun_induction readOut w f with
  | case1 f message hanswer ih => exact ih.trans (read_settings w f)
  | case2 f failure hanswer => exact read_settings w f

/-- What is read of the stream that is held: its messages, and then how its scan ends. -/
structure ReadsOut (multipart : Bool) (scan : Scan) (out : Readout (Feed ω φ η)) : Prop where
  messages : out.messages.map Message.payloads = scan.messages multipart
  failure : out.failure = scan.failure
  idle : out.next.link = .idle

/-- **Reading until a read fails** reads all messages of the stream that is held.  By induction
    on the reads. -/
theorem readOut_spec (h : f.link = .connected scanner) :
    ReadsOut f.settings.multipart (scanner.drain w) (f.readOut w) := by
  fun_induction readOut w f generalizing scanner with
  | case1 f message hanswer ih =>
    cases read_spec (w := w) h with
    | @first message' scanner' answer link ahead outcome =>
      obtain rfl : message = message' := Except.ok.inj (hanswer.symm.trans answer)
      -- one message now, and the rest from the scanner that is kept
      obtain ⟨hmessages, hfailure, hidle⟩ := ih link
      rw [read_settings] at hmessages
      refine ⟨?_, ?_, hidle⟩
      · rw [Readout.cons, List.map_cons, hmessages, ahead]
      · rw [Scan.failure, ← outcome]
        exact hfailure
    | @last message' answer link ahead outcome =>
      -- the next read finds no stream
      obtain rfl : message = message' := Except.ok.inj (hanswer.symm.trans answer)
      have hfree : (f.read w).next.link.isConnected = false := by rw [link]; rfl
      rw [readOut_of_not_connected hfree]
      refine ⟨?_, ?_, link⟩
      · rw [Readout.cons, List.map_singleton, ahead]
      · rw [Scan.failure, outcome]
        rfl
    -- the read had an answer with a message, which this case has not
    | none answer link ahead => simp [answer] at hanswer
  | case2 f failure hanswer =>
    cases read_spec (w := w) h with
    -- and here the read failed, which the first two cases do not
    | first answer link ahead outcome => simp [answer] at hanswer
    | last answer link ahead outcome => simp [answer] at hanswer
    | none answer link ahead =>
      exact ⟨ahead.symm, Except.error.inj (hanswer.symm.trans answer), link⟩

end Reading

/-! ## Connecting

  From here on the streams are scripted, since what a caller can still hope for depends on what
  the factory has to offer. -/

variable {w : Switch} {f : Feed Switch Offers Script} {stream : Script}

/-- What connecting makes of a feed over scripted streams.  The cases go by the link and the next
    offer. -/
inductive TakesUp (f : Feed Switch Offers Script) :
    Reply (Feed Switch Offers Script) (Except FeedError Unit) → Prop where
  /-- a stream is held already -/
  | held {reply} {scanner : Scanner Script Delimiter} (link : f.link = .connected scanner)
      (answer : reply.answer = .ok ()) (next : reply.next = f) : TakesUp f reply
  /-- the next stream is taken up -/
  | taken {reply} {stream : Script} (idle : f.link = .idle) (answer : reply.answer = .ok ())
      (link : reply.next.link = .connected (f.scannerOver stream))
      (offers : f.factory.upcoming = .stream stream :: reply.next.factory.upcoming)
      (streams : f.upcoming = stream :: reply.next.upcoming) : TakesUp f reply
  /-- the next stream cannot be had -/
  | refused {reply} {error : IoError} (idle : f.link = .idle)
      (answer : reply.answer = .error (.io error)) (link : reply.next.link = .idle)
      (offers : f.factory.upcoming = .refused error :: reply.next.factory.upcoming)
      (streams : f.upcoming = reply.next.upcoming) : TakesUp f reply
  /-- there is no stream left -/
  | exhausted {reply} (free : f.link.isConnected = false) (streams : f.upcoming = [])
      (answer : reply.answer = .error .closed) (link : reply.next.link = .closed) :
      TakesUp f reply

/-- **Connecting** is one of these. -/
theorem connect_spec (w : Switch) (f : Feed Switch Offers Script) : TakesUp f (f.connect w) := by
  cases hlink : f.link with
  | connected scanner =>
    rw [connect_of_connected hlink]
    exact .held hlink rfl rfl
  | closed =>
    rw [connect_of_closed hlink]
    exact .exhausted (by rw [hlink]; rfl) (by rw [upcoming, hlink]) rfl hlink
  | idle =>
    obtain ⟨events, hconnect⟩ := connect_of_idle (w := w) hlink
    rw [hconnect]
    -- with the record taken apart, each offer computes
    obtain ⟨⟨offers⟩, unblock, settings, arena, link⟩ := f
    obtain rfl : link = .idle := hlink
    cases offers with
    | nil => exact .exhausted rfl rfl rfl rfl
    | cons offer more =>
      cases offer with
      | stream script => exact .taken rfl rfl rfl rfl rfl
      | refused error => exact .refused rfl rfl rfl rfl rfl
      | nothing => exact .exhausted rfl rfl rfl rfl

/-- An idle feed takes up the stream that is offered next. -/
theorem connect_of_offered {more : List Offer} (h : f.link = .idle)
    (hoffers : f.factory.upcoming = .stream stream :: more) :
    (f.connect w).next.link = .connected (f.scannerOver stream) := by
  cases connect_spec w f with
  | held link => simp [h] at link
  | taken idle answer link offers streams =>
    obtain ⟨⟨rfl⟩, -⟩ := List.cons.inj (hoffers.symm.trans offers)
    exact link
  | refused idle answer link offers streams => simp [hoffers] at offers
  | exhausted free streams answer link =>
    -- a factory that offers a stream is not exhausted
    have hstreams : f.upcoming = stream :: Offers.streamsOf more := by
      rw [upcoming_of_ne_closed (by simp [h]), Offers.streams, hoffers]
      rfl
    simp [hstreams] at streams

/-- **The next stream, read to its end.** -/
theorem readOut_of_offered {more : List Offer} (hw : w.thrown = 0) (h : f.link = .idle)
    (hoffers : f.factory.upcoming = .stream stream :: more) :
    ReadsOut f.settings.multipart (stream.scan f.settings) ((f.connect w).next.readOut w) := by
  have hout := readOut_spec (w := w) (connect_of_offered (w := w) h hoffers)
  rwa [connect_settings, drain_scannerOver hw] at hout

/-- Connecting changes nothing of the messages ahead.  A stream that is taken up goes from those to
    come to the one that is held, and a refusal is no stream. -/
theorem ahead_connect (hw : w.thrown = 0) (f : Feed Switch Offers Script) :
    (f.connect w).next.ahead w = f.ahead w := by
  cases connect_spec w f with
  | held link answer next => rw [next]
  | @taken stream idle answer link offers streams =>
    rw [ahead, ahead, connect_settings, aheadHere_of_connected link, connect_settings,
      drain_scannerOver hw, aheadHere_of_not_connected (by rw [idle]; rfl), streams]
    rfl
  | refused idle answer link offers streams =>
    rw [ahead, ahead, connect_settings, aheadHere_of_not_connected (by rw [link]; rfl),
      aheadHere_of_not_connected (by rw [idle]; rfl), streams]
  | exhausted free streams answer link =>
    rw [ahead, ahead, aheadHere_of_not_connected (by rw [link]; rfl),
      aheadHere_of_not_connected free, streams, upcoming, link]
    rfl

/-- Reading the stream that is held takes its messages from those ahead.  After that no stream is
    held, and those to come are as they were. -/
theorem ahead_readOut (w : Switch) (f : Feed Switch Offers Script) :
    f.ahead w = (f.readOut w).messages.map Message.payloads ++ (f.readOut w).next.ahead w := by
  cases hlink : f.link with
  | idle | closed =>
    rw [readOut_of_not_connected (by rw [hlink]; rfl)]
    rfl
  | connected scanner =>
    obtain ⟨hmessages, -, hidle⟩ := readOut_spec (w := w) hlink
    rw [hmessages, ahead, ahead, aheadHere_of_connected hlink,
      aheadHere_of_not_connected (by rw [hidle]; rfl), readOut_settings,
      upcoming_of_ne_closed (by simp [hlink]), upcoming_of_ne_closed (by simp [hidle]),
      readOut_factory]
    rfl

/-! ## All streams

  The outer loop of the caller.  Each round uses up an offer, or reads out the stream that the
  feed held before. -/

/-- The rounds that a caller still has to go through who reads all streams.  A stream that is held
    counts as one more, so that giving it back is progress. -/
def rounds (f : Feed Switch Offers Script) : Nat :=
  f.factory.upcoming.length + if f.link.isConnected then 1 else 0

/-- Without a stream there are just the offers to go through. -/
theorem rounds_of_not_connected (h : f.link.isConnected = false) :
    f.rounds = f.factory.upcoming.length := by
  rw [rounds, h]
  rfl

/-- A stream that was read to its end is one round. -/
theorem readOut_rounds_lt (h : (f.connect w).answer = .ok ()) :
    ((f.connect w).next.readOut w).next.rounds < f.rounds := by
  rw [rounds_of_not_connected (readOut_not_connected _ _), readOut_factory]
  cases connect_spec w f with
  | held link answer next =>
    rw [next, rounds, link]
    exact Nat.lt_succ_self _
  | taken idle answer link offers streams =>
    rw [rounds_of_not_connected (by rw [idle]; rfl), offers]
    exact Nat.lt_succ_self _
  | refused idle answer link offers streams => simp [answer] at h
  | exhausted free streams answer link => simp [answer] at h

/-- So is a stream that could not be had.  Of the failures of connecting only a refusal leaves hope
    for another stream. -/
theorem connect_rounds_lt {error : FeedError} (h : (f.connect w).answer = .error error)
    (hrecoverable : error.isRecoverable = true) : (f.connect w).next.rounds < f.rounds := by
  cases connect_spec w f with
  | held link answer next => simp [answer] at h
  | taken idle answer link offers streams => simp [answer] at h
  | refused idle answer link offers streams =>
    rw [rounds_of_not_connected (by rw [link]; rfl), rounds_of_not_connected (by rw [idle]; rfl),
      offers]
    exact Nat.lt_succ_self _
  | exhausted free streams answer link =>
    obtain rfl : FeedError.closed = error := Except.error.inj (answer.symm.trans h)
    simp [FeedError.isRecoverable] at hrecoverable

/-- Reads all streams: as long as there is hope for a further one, connects and reads until a read
    fails. -/
def drain (w : Switch) (f : Feed Switch Offers Script) : List Message :=
  match _h : (f.connect w).answer with
  | .ok () =>
    let out := (f.connect w).next.readOut w
    out.messages ++ drain w out.next
  | .error error =>
    if _hrecoverable : error.isRecoverable then drain w (f.connect w).next else []
termination_by f.rounds
decreasing_by
  · exact readOut_rounds_lt _h
  · exact connect_rounds_lt _h _hrecoverable

/-- **Draining reads all that is ahead**, and in order.  By induction on the rounds: connecting
    leaves the messages ahead as they are, and reading until a read fails takes those of one
    stream. -/
theorem drain_eq_ahead (hw : w.thrown = 0) (f : Feed Switch Offers Script) :
    (f.drain w).map Message.payloads = f.ahead w := by
  fun_induction drain w f with
  | case1 f hanswer out ih =>
    rw [List.map_append, ih, ← ahead_readOut, ahead_connect hw]
  | case2 f error hanswer hrecoverable ih => rw [ih, ahead_connect hw]
  | case3 f error hanswer hrecoverable =>
    -- a failure without hope means that nothing was ahead
    cases connect_spec w f with
    | held link answer next => simp [answer] at hanswer
    | taken idle answer link offers streams => simp [answer] at hanswer
    | refused idle answer link offers streams =>
      obtain rfl := Except.error.inj (answer.symm.trans hanswer)
      simp [FeedError.isRecoverable] at hrecoverable
    | exhausted free streams answer link =>
      rw [ahead, aheadHere_of_not_connected free, streams]
      rfl

/-- Draining a new feed reads the messages of all streams.  This is the form in which `drain_joined`
    uses it. -/
theorem drain_of_make {offers : Offers} {unblock : Switch → Switch} {settings : Settings}
    (hw : w.thrown = 0) (h : make offers unblock settings = .ok f) :
    (f.drain w).map Message.payloads = offers.streams.flatMap (Script.messages settings) := by
  rw [drain_eq_ahead hw, ahead_of_make h]

end Feed

end RecordFeed
