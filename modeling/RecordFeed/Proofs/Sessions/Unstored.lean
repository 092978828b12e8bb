/-
  What is stored does not show.

  A feed copies every record into its arena, and the arena opens segments, fills them and is reset
  at moments that depend on the capacity of its segments and on the acknowledgements.  Nothing of
  this comes back: what is read of a stream and when, which streams are asked for and given back,
  all this is the same whatever is stored.

  Two runs are compared, of feeds that differ in the capacity of their segments, by calls that
  differ in the acknowledgements among them.  The runs need not be equally long.

  1. **View** (`unstored`, `shown`).  A feed without its arena and the capacity, and a reply with
     the bytes of a message in place of its parts, which say where in the arena they lie.

  2. **Step** (`ask_unstored`, `acknowledge_unstored`).  Feeds that look the same are asked the same
     and look the same afterwards; an acknowledgement does not change how a feed looks.

  3. **Run** (`run_erased`).  A run shows what it shows without its acknowledgements, over any feed
     that looks the same.  Two runs that agree without them are both compared with this one.
-/
import RecordFeed.Proofs.Messages.Visits
import RecordFeed.Proofs.Sessions.Counters

namespace RecordFeed

/-- What an answer shows: that it is done, the bytes of a message, or the error. -/
def Answer.shown : Answer → Except FeedError (Option (List Bytes))
  | .done outcome => outcome.map fun _ => none
  | .message outcome => outcome.map fun message => some message.payloads

/-- The log tells of a delivery that failed. -/
def Event.tellsOfDelivery : Event → Bool
  | .log (.deliveryFailed _ _) => true
  | _ => false

/-- The settings without the capacity of the segments.  It is the only one of them that is about
    storing. -/
def Settings.unstored (s : Settings) : Settings := { s with segmentCapacity := 0 }

theorem Message.size_eq (m : Message) : m.size = m.payloads.length := by
  simp [size, payloads]

/-! ## Gathering one message

  Two assemblies are compared by the bytes of their messages alone; their arenas may be as
  different as they like. -/

/-- A record adds the same to messages with the same bytes. -/
theorem Assembly.take_payloads {a b : Assembly} (h : a.message.payloads = b.message.payloads)
    (multipart : Bool) (record : Bytes) :
    (a.take multipart record).1.message.payloads = (b.take multipart record).1.message.payloads ∧
      (a.take multipart record).2 = (b.take multipart record).2 := by
  have hempty : a.message.isEmpty = b.message.isEmpty := by
    rw [Message.isEmpty_eq, Message.isEmpty_eq, h]
  unfold take
  -- a blank record completes a message that is not empty, and the bytes say whether it is
  by_cases hblank : record.isEmpty
  · rw [if_pos hblank, if_pos hblank, hempty]
    exact ⟨h, rfl⟩
  · rw [if_neg hblank, if_neg hblank]
    simp only [Message.payloads_push, Arena.append_payload, h, and_self]

variable {ω φ η : Type} [ByteSource ω η] {w : ω}

/-- What gathering leaves: the scanner, and the bytes of the message. -/
def leaveBytes (left : Scanner η Delimiter × Assembly) : Scanner η Delimiter × List Bytes :=
  (left.1, left.2.message.payloads)

/-- Gathering does not depend on where the records are put.  By induction on the records scanned.
    Unlike in `gather_alike`, nothing is assumed of the two arenas. -/
theorem gather_payloads {multipart : Bool} {scanner : Scanner η Delimiter} {a b : Assembly}
    (h : a.message.payloads = b.message.payloads) :
    (gather w multipart scanner a).within leaveBytes =
      (gather w multipart scanner b).within leaveBytes := by
  fun_induction gather w multipart scanner a generalizing b
  case case1 scanner a reply error hanswer =>
    rw [gather_of_error hanswer]
    simp only [Reply.within, leaveBytes, h]
    rfl
  case case2 scanner a reply hanswer =>
    rw [gather_of_none hanswer]
    simp only [Reply.within, leaveBytes, h]
    rfl
  case case3 scanner a reply record hanswer taken htaken =>
    obtain ⟨hbytes, hdone⟩ := Assembly.take_payloads h multipart record
    rw [gather_of_record hanswer, if_pos (hdone ▸ htaken)]
    simp only [Reply.within, leaveBytes, ← hbytes]
    rfl
  case case4 scanner a reply record hanswer taken htaken ih =>
    obtain ⟨hbytes, hdone⟩ := Assembly.take_payloads h multipart record
    rw [gather_of_record hanswer, if_neg (hdone ▸ htaken)]
    exact congrArg (Reply.after reply.events) (ih hbytes)

/-! ## One call

  A feed that looks the same need not be the same, and what follows says that looking is
  enough. -/

namespace Feed

/-- The same feed, with nothing stored and no capacity. -/
def unstored (f : Feed ω φ η) : Feed ω φ η :=
  { f with arena := { segmentCapacity := 0 }, settings := f.settings.unstored }

/-- A reply as it shows.  This is all that a caller can see of it without looking into the arena. -/
def shown (reply : Reply (Feed ω φ η) Answer) :
    Reply (Feed ω φ η) (Except FeedError (Option (List Bytes))) :=
  (reply.map Answer.shown).within unstored

/-- A reply to a read as it shows. -/
def shownRead (reply : Reply (Feed ω φ η) (Except FeedError Message)) :
    Reply (Feed ω φ η) (Except FeedError (List Bytes)) :=
  (reply.map (Except.map Message.payloads)).within unstored

variable {f g : Feed ω φ η}

section Frames

omit [ByteSource ω η]

/-- Feeds look the same when they agree in their factory, their hook, their link and all settings
    but the capacity. -/
theorem unstored_eq_iff :
    f.unstored = g.unstored ↔
      f.factory = g.factory ∧ f.unblock = g.unblock ∧
        f.settings.unstored = g.settings.unstored ∧ f.link = g.link := by
  simp only [unstored, mk.injEq, true_and]

/-- Whatever is acknowledged, a feed looks the same. -/
theorem acknowledge_unstored (failure : Option String) (f : Feed ω φ η) :
    (f.acknowledge failure).next.unstored = f.unstored := by
  cases failure <;> rfl

/-- An acknowledgement tells of a delivery that failed, and of nothing else. -/
theorem acknowledge_events (failure : Option String) (f : Feed ω φ η) :
    ∀ e ∈ (f.acknowledge failure).events, e.tellsOfDelivery = true := by
  cases failure <;> simp [acknowledge, Event.tellsOfDelivery]

/-- Giving a stream back looks the same, whatever is stored. -/
theorem release_unstored (h : f.unstored = g.unstored) :
    f.release.within unstored = g.release.within unstored := by
  obtain ⟨hfactory, hunblock, hsettings, hlink⟩ := unstored_eq_iff.mp h
  unfold release
  rw [← hlink]
  cases f.link with
  | connected scanner =>
    have hnext : ({ f with link := .idle } : Feed ω φ η).unstored =
        ({ g with link := .idle } : Feed ω φ η).unstored :=
      unstored_eq_iff.mpr ⟨hfactory, hunblock, hsettings, rfl⟩
    simp only [Reply.within, hnext]
  | idle | closed => simp only [Reply.within, h]

/-- So does the end of a read.  The log tells how many parts there were, which is the same for
    messages with the same bytes. -/
theorem settle_unstored (h : f.unstored = g.unstored) {message message' : Message}
    (hbytes : message.payloads = message'.payloads) (ending : Ending) (events : List Event) :
    shownRead (f.settle message ending events) = shownRead (g.settle message' ending events) := by
  have hempty : message.isEmpty = message'.isEmpty := by
    rw [Message.isEmpty_eq, Message.isEmpty_eq, hbytes]
  have hsize : message.size = message'.size := by
    rw [Message.size_eq, Message.size_eq, hbytes]
  -- the stream is given back in the same way on both sides
  have hrelease := release_unstored h
  simp only [Reply.within, Reply.mk.injEq] at hrelease
  obtain ⟨-, hnext, hevents⟩ := hrelease
  cases ending with
  | complete => simp only [settle, shownRead, Reply.within, Reply.map, Except.map, h, hbytes]
  | failed error => simp only [settle, shownRead, Reply.within, Reply.map, hnext, hevents]
  | drained =>
    simp only [settle, shownRead, Reply.within, Reply.map, hnext, hevents, hempty, hsize]
    split <;> simp only [Except.map, hbytes]

end Frames

/-- Feeds that look the same read the same bytes. -/
theorem read_unstored (h : f.unstored = g.unstored) :
    shownRead (f.read w) = shownRead (g.read w) := by
  obtain ⟨hfactory, hunblock, hsettings, hlink⟩ := unstored_eq_iff.mp h
  cases hf : f.link with
  | connected scanner =>
    have hmode : f.settings.multipart = g.settings.multipart := by
      simp only [Settings.unstored, Settings.mk.injEq] at hsettings
      exact hsettings.2.2.1
    have hgather : (gather w f.settings.multipart scanner { arena := f.arena }).within leaveBytes =
        (gather w f.settings.multipart scanner { arena := g.arena }).within leaveBytes :=
      gather_payloads rfl
    rw [read_connected hf, read_connected (hlink ▸ hf), ← hmode]
    -- only what both gatherings left matters from here on
    generalize gather w f.settings.multipart scanner { arena := f.arena } = left at hgather ⊢
    generalize gather w f.settings.multipart scanner { arena := g.arena } = right at hgather ⊢
    obtain ⟨answer, ⟨next, assembly⟩, events⟩ := left
    obtain ⟨answer', ⟨next', assembly'⟩, events'⟩ := right
    simp only [Reply.within, leaveBytes, Reply.mk.injEq, Prod.mk.injEq] at hgather
    obtain ⟨rfl, ⟨rfl, hbytes⟩, rfl⟩ := hgather
    refine settle_unstored ?_ hbytes _ _
    exact unstored_eq_iff.mpr ⟨hfactory, hunblock, hsettings, rfl⟩
  | idle | closed =>
    have hfree : f.link.isConnected = false := by rw [hf]; rfl
    rw [read_not_connected hfree, read_not_connected (hlink ▸ hfree)]
    simp only [shownRead, Reply.within, Reply.map, h]

variable [StreamFactory ω φ η]

omit [ByteSource ω η] in
/-- Feeds that look the same connect the same.  The capacity is in the settings, and connecting
    looks at the delimiter, the limit and the mode. -/
theorem connect_unstored (h : f.unstored = g.unstored) :
    (f.connect w).within unstored = (g.connect w).within unstored := by
  obtain ⟨hfactory, hunblock, hsettings, hlink⟩ := unstored_eq_iff.mp h
  obtain ⟨factory, unblock, ⟨delimiter, limit, multipart, capacity⟩, arena, link⟩ := f
  obtain ⟨factory', unblock', ⟨delimiter', limit', multipart', capacity'⟩, arena', link'⟩ := g
  obtain rfl : factory = factory' := hfactory
  obtain rfl : unblock = unblock' := hunblock
  obtain rfl : link = link' := hlink
  simp only [Settings.unstored, Settings.mk.injEq, and_true] at hsettings
  obtain ⟨rfl, rfl, rfl⟩ := hsettings
  cases link with
  | connected scanner => simp only [connect, Reply.within, h]
  | closed => simp only [connect, Reply.within, h]
  | idle =>
    unfold connect
    dsimp only
    cases (StreamFactory.nextStream w factory).answer <;> rfl

/-- **Feeds that look the same are answered the same**, and look the same afterwards.  One case for
    each request but an acknowledgement, which is dealt with in `run_erased`. -/
theorem ask_unstored (h : f.unstored = g.unstored) {call : Call ω}
    (hcall : call.acknowledges = false) : shown (call.ask f) = shown (call.ask g) := by
  obtain ⟨w, request⟩ := call
  cases request with
  | connect =>
    have hconnect := connect_unstored (w := w) h
    simp only [Reply.within, Reply.mk.injEq] at hconnect
    simp only [shown, Call.ask, reader_connect, Reply.within, Reply.map, hconnect]
  | read =>
    have hread := read_unstored (w := w) h
    simp only [shownRead, Reply.within, Reply.map, Reply.mk.injEq] at hread
    obtain ⟨hanswer, hnext, hevents⟩ := hread
    -- an answer shows the bytes of its message and nothing of where they are
    have hshown (outcome : Except FeedError Message) : (Answer.message outcome).shown =
        (outcome.map Message.payloads).map some := by
      cases outcome <;> rfl
    simp only [shown, Call.ask, reader_read, Reply.within, Reply.map, hshown, hanswer, hnext,
      hevents]
  | acknowledge failure => simp [Call.acknowledges] at hcall
  | waitForClose milliseconds =>
    have hrelease := release_unstored h
    simp only [Reply.within, Reply.mk.injEq] at hrelease
    show (Reply.mk _ _ _ : Reply (Feed ω φ η) _) = Reply.mk _ _ _
    simp only [Reply.mk.injEq]
    refine ⟨rfl, hrelease.2.1, ?_⟩
    show Event.log (.closing milliseconds) :: f.release.events =
      Event.log (.closing milliseconds) :: g.release.events
    rw [hrelease.2.2]

/-! ## A run

  Acknowledgements are left out on one side, so the calls of the two runs do not correspond one
  to one.  What is compared is the list of replies to the other calls. -/

/-- What the calls that are no acknowledgements are shown, one after another. -/
def shownReplies : List (Call ω) → Feed ω φ η →
    List (Reply (Feed ω φ η) (Except FeedError (Option (List Bytes))))
  | [], _ => []
  | call :: later, f =>
    let rest := shownReplies later (call.ask f).next
    if call.acknowledges then rest else shown (call.ask f) :: rest

/-- The calls without the acknowledgements among them. -/
def unacknowledged (calls : List (Call ω)) : List (Call ω) :=
  calls.filter fun call => !call.acknowledges

/-- The events of a run, without what it tells of deliveries that failed. -/
def shownEvents (calls : List (Call ω)) (f : Feed ω φ η) : List Event :=
  (run calls f).events.filter fun e => !e.tellsOfDelivery

theorem shownEvents_cons (call : Call ω) (later : List (Call ω)) (f : Feed ω φ η) :
    shownEvents (call :: later) f =
      ((call.ask f).events.filter fun e => !e.tellsOfDelivery) ++
        shownEvents later (call.ask f).next :=
  List.filter_append ..

/-- **A run shows what it shows without its acknowledgements**, over any feed that looks the
    same.  By induction on the calls. -/
theorem run_erased (calls : List (Call ω)) (h : f.unstored = g.unstored) :
    shownReplies calls f = shownReplies (unacknowledged calls) g ∧
      shownEvents calls f = shownEvents (unacknowledged calls) g ∧
      (run calls f).next.unstored = (run (unacknowledged calls) g).next.unstored := by
  induction calls generalizing f g with
  | nil => exact ⟨rfl, rfl, h⟩
  | cons call later ih =>
    rw [shownReplies, shownEvents_cons, run_cons_next]
    cases hcall : call.acknowledges with
    | true =>
      -- the call leaves the feed as it looks and shows nothing
      obtain ⟨w, request⟩ := call
      have herased : unacknowledged (⟨w, request⟩ :: later) = unacknowledged later :=
        List.filter_cons_of_neg (by simp [hcall])
      cases request with
      | connect | read | waitForClose milliseconds => simp [Call.acknowledges] at hcall
      | acknowledge failure =>
        have hquiet : ((f.acknowledge failure).events.filter fun e => !e.tellsOfDelivery) = [] := by
          rw [List.filter_eq_nil_iff]
          intro e he
          simp [acknowledge_events failure f e he]
        rw [herased, if_pos rfl]
        show _ ∧ ((f.acknowledge failure).events.filter fun e => !e.tellsOfDelivery) ++ _ = _ ∧ _
        rw [hquiet, List.nil_append]
        exact ih ((acknowledge_unstored failure f).trans h)
    | false =>
      have herased : unacknowledged (call :: later) = call :: unacknowledged later :=
        List.filter_cons_of_pos (by simp [hcall])
      have hshown := ask_unstored h hcall
      have hevents : (call.ask f).events = (call.ask g).events := congrArg (·.events) hshown
      have hnext : (call.ask f).next.unstored = (call.ask g).next.unstored :=
        congrArg (·.next) hshown
      -- the call is in both runs, and is answered the same
      obtain ⟨hreplies, hrest, hlast⟩ := ih hnext
      rw [herased, shownReplies, shownEvents_cons, run_cons_next, hcall, hshown, hevents, hreplies,
        hrest]
      exact ⟨rfl, rfl, hlast⟩

/-- **What is stored does not show.**  Two feeds are made of the same factory and hook on
    settings that agree in all but the capacity of the segments, and are asked the same but for
    acknowledgements, which may stand anywhere among the calls.  Then all other calls are
    answered with the same bytes and errors, in the same situation, with the same state of the
    factory and the same events: the factory is asked, handles are obtained, read and dropped in
    both runs alike.  In the events of the whole runs only the lines about failed deliveries may
    differ, and at the end the feeds differ in nothing but what they have stored. -/
theorem storage_hidden {factory : φ} {unblock : ω → ω} {settings settings' : Settings}
    {f g : Feed ω φ η} (hf : make factory unblock settings = .ok f)
    (hg : make factory unblock settings' = .ok g)
    (hsettings : settings.unstored = settings'.unstored) {calls calls' : List (Call ω)}
    (hcalls : unacknowledged calls = unacknowledged calls') :
    shownReplies calls f = shownReplies calls' g ∧
    shownEvents calls f = shownEvents calls' g ∧
    (run calls f).next.unstored = (run calls' g).next.unstored := by
  have hlooks : f.unstored = g.unstored := by
    unfold make at hf hg
    split at hf
    · simp at hf
    · split at hg
      · simp at hg
      · obtain rfl := Except.ok.inj hf
        obtain rfl := Except.ok.inj hg
        exact unstored_eq_iff.mpr ⟨rfl, rfl, hsettings, rfl⟩
  obtain ⟨hreplies, hevents, hlast⟩ := run_erased calls hlooks
  -- the second run is compared with its own erasure, over its own feed
  obtain ⟨hreplies', hevents', hlast'⟩ := run_erased calls' (rfl : g.unstored = g.unstored)
  rw [hcalls] at hreplies hevents hlast
  exact ⟨hreplies.trans hreplies'.symm, hevents.trans hevents'.symm, hlast.trans hlast'.symm⟩

/-- The feed over two streams, with segments of one byte. -/
def overTwoStreamsOfBytes : Feed Switch Offers Script :=
  { overTwoStreams with
    settings := { multipart := true, segmentCapacity := 1 }
    arena := Arena.ofCapacity 1 }

/-- Requests that read both streams, with acknowledgements in the middle of a stream. -/
def settleTwoStreams : List (Call Switch) :=
  [.acknowledge (some "early"), .connect, .read, .acknowledge none, .read, .connect,
    .acknowledge (some "down"), .connect, .read, .acknowledge none].map (Call.mk ⟨0⟩)

/-- The two runs differ in their length, and what they have stored at the end differs too. -/
theorem storage_hidden_two_streams :
    make twoStreams Switch.throw { multipart := true } = .ok overTwoStreams ∧
    make twoStreams Switch.throw { multipart := true, segmentCapacity := 1 } =
      .ok overTwoStreamsOfBytes ∧
    (run readTwoStreams overTwoStreams).next.bufferedBytes ≠
      (run settleTwoStreams overTwoStreamsOfBytes).next.bufferedBytes ∧
    unacknowledged readTwoStreams = unacknowledged settleTwoStreams ∧
    shownReplies readTwoStreams overTwoStreams =
      shownReplies settleTwoStreams overTwoStreamsOfBytes :=
  have hf : make twoStreams Switch.throw { multipart := true } = .ok overTwoStreams := rfl
  have hg : make twoStreams Switch.throw { multipart := true, segmentCapacity := 1 } =
    .ok overTwoStreamsOfBytes := rfl
  have hcalls : unacknowledged readTwoStreams = unacknowledged settleTwoStreams := rfl
  ⟨hf, hg, by decide +kernel, hcalls, (storage_hidden hf hg rfl hcalls).1⟩

end Feed

end RecordFeed
