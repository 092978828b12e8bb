/-
  The counters of the arena decide nothing.

  An arena counts the bytes and the segments in use since the last reset.  Where a record goes does
  not depend on them, so a feed answers the same whatever they say.  An acknowledgement changes
  nothing else: it can be left out of a run without a trace in the messages, in the link or in the
  factory.

  Two states are alike when they are the same but for the counters (`uncounted`).  Each operation
  answers alike states the same and leaves them alike.
-/
import RecordFeed.Proofs.Sessions.FeedCalls

namespace RecordFeed

/-! ## Arena

  Where the next record goes is said by the offset and by the room in the current segment.
  Both are the same in alike arenas. -/

namespace Arena

/-- The same arena with its counters at zero. -/
def uncounted (a : Arena) : Arena := { a with cursor := 0, segments := 0 }

variable {a b : Arena}

/-- Making room does not look at the counters, it only sets them. -/
theorem reserve_uncounted (a : Arena) (length : Nat) :
    (a.uncounted.reserve length).uncounted = (a.reserve length).uncounted := by
  unfold reserve
  -- the room is the same with the counters at zero
  show (if a.room < length then _ else _ : Arena).uncounted = _
  split <;> rfl

/-- A record goes to the same place of alike arenas and leaves them alike. -/
theorem append_alike (h : a.uncounted = b.uncounted) (record : Bytes) :
    (a.append record).1 = (b.append record).1 ∧
      (a.append record).2.uncounted = (b.append record).2.uncounted := by
  have hreserved : (a.reserve record.length).uncounted = (b.reserve record.length).uncounted := by
    rw [← reserve_uncounted a, ← reserve_uncounted b, h]
  unfold append
  -- what was reserved is alike, and the rest of `append` is a matter of its fields
  generalize a.reserve record.length = a' at hreserved ⊢
  generalize b.reserve record.length = b' at hreserved ⊢
  obtain ⟨capacity, store, offset, cursor, segments⟩ := a'
  obtain ⟨capacity', store', offset', cursor', segments'⟩ := b'
  simp only [uncounted, mk.injEq] at hreserved
  obtain ⟨rfl, rfl, rfl, -, -⟩ := hreserved
  exact ⟨rfl, rfl⟩

end Arena

/-! ## Gathering one message

  The same for an arena with an open message, and for all records that go into it. -/

/-- The same assembly with the counters of its arena at zero. -/
def Assembly.uncounted (a : Assembly) : Assembly := { a with arena := a.arena.uncounted }

/-- A record is taken into alike assemblies in the same way: the mode, the record and the open
    message decide, and the part is put at the same place. -/
theorem Assembly.take_alike {a b : Assembly} (h : a.uncounted = b.uncounted) (multipart : Bool)
    (record : Bytes) :
    (a.take multipart record).1.uncounted = (b.take multipart record).1.uncounted ∧
      (a.take multipart record).2 = (b.take multipart record).2 := by
  obtain ⟨arena, message⟩ := a
  obtain ⟨arena', message'⟩ := b
  simp only [uncounted, mk.injEq] at h
  obtain ⟨harena, rfl⟩ := h
  unfold take
  split
  · exact ⟨by rw [uncounted, uncounted, harena], rfl⟩
  · obtain ⟨hpart, hnext⟩ := Arena.append_alike harena record
    simp only [uncounted, hpart, hnext, and_self]

variable {ω φ η : Type} [ByteSource ω η] {w : ω} {multipart : Bool}

section Gathering

variable {scanner : Scanner η Delimiter} {a : Assembly}

/-- The equation of `gather` for a scanner that fails. -/
theorem gather_of_error {error : FeedError} (h : (scanner.nextToken w).answer = .error error) :
    gather w multipart scanner a =
      { answer := .failed error
        next := ((scanner.nextToken w).next, a)
        events := (scanner.nextToken w).events } := by
  rw [gather]
  -- the other two branches contradict the answer of the scanner
  split
  · rename_i hanswer
    obtain rfl := Except.error.inj (hanswer.symm.trans h)
    rfl
  · rename_i hanswer
    cases hanswer.symm.trans h
  · rename_i hanswer
    cases hanswer.symm.trans h

/-- For a scanner that has no further record. -/
theorem gather_of_none (h : (scanner.nextToken w).answer = .ok none) :
    gather w multipart scanner a =
      { answer := .drained
        next := ((scanner.nextToken w).next, a)
        events := (scanner.nextToken w).events } := by
  rw [gather]
  split
  · rename_i hanswer
    cases hanswer.symm.trans h
  · rfl
  · rename_i hanswer
    cases hanswer.symm.trans h

/-- And for one that gives a record.  The three are stated without the proofs that the recursion
    carries, so that they can be used on two assemblies at once. -/
theorem gather_of_record {record : Bytes} (h : (scanner.nextToken w).answer = .ok (some record)) :
    gather w multipart scanner a =
      if (a.take multipart record).2 then
        { answer := .complete
          next := ((scanner.nextToken w).next, (a.take multipart record).1)
          events := (scanner.nextToken w).events }
      else
        (gather w multipart (scanner.nextToken w).next (a.take multipart record).1).after
          (scanner.nextToken w).events := by
  rw [gather]
  split
  · rename_i hanswer
    cases hanswer.symm.trans h
  · rename_i hanswer
    cases hanswer.symm.trans h
  · rename_i hanswer
    obtain rfl := Option.some.inj (Except.ok.inj (hanswer.symm.trans h))
    rfl

/-- What gathering leaves, with the counters at zero. -/
def leaveUncounted (left : Scanner η Delimiter × Assembly) : Scanner η Delimiter × Assembly :=
  (left.1, left.2.uncounted)

/-- Gathering into alike assemblies goes the same way.  By induction on the records scanned; the
    scanner is the same on both sides, and the other assembly is carried along. -/
theorem gather_alike {scanner : Scanner η Delimiter} {a b : Assembly}
    (h : a.uncounted = b.uncounted) :
    (gather w multipart scanner a).within leaveUncounted =
      (gather w multipart scanner b).within leaveUncounted := by
  fun_induction gather w multipart scanner a generalizing b
  case case1 scanner a reply error hanswer =>
    rw [gather_of_error hanswer]
    simp only [Reply.within, leaveUncounted, h]
    rfl
  case case2 scanner a reply hanswer =>
    rw [gather_of_none hanswer]
    simp only [Reply.within, leaveUncounted, h]
    rfl
  case case3 scanner a reply record hanswer taken htaken =>
    -- the record completes both messages or none of them
    obtain ⟨hnext, hdone⟩ := Assembly.take_alike h multipart record
    rw [gather_of_record hanswer, if_pos (hdone ▸ htaken)]
    simp only [Reply.within, leaveUncounted, ← hnext]
    rfl
  case case4 scanner a reply record hanswer taken htaken ih =>
    obtain ⟨hnext, hdone⟩ := Assembly.take_alike h multipart record
    rw [gather_of_record hanswer, if_neg (hdone ▸ htaken)]
    exact congrArg (Reply.after reply.events) (ih hnext)

end Gathering

/-! ## The feed

  And for a feed, whose other fields have to agree as they are. -/

namespace Feed

/-- The same feed with the counters of its arena at zero. -/
def uncounted (f : Feed ω φ η) : Feed ω φ η := { f with arena := f.arena.uncounted }

variable {f g : Feed ω φ η}

section Frames

omit [ByteSource ω η]

/-- Whatever is acknowledged, the counters are all that changes.  A failure is put down in the log,
    and success resets the arena. -/
theorem acknowledge_uncounted (failure : Option String) (f : Feed ω φ η) :
    (f.acknowledge failure).next.uncounted = f.uncounted := by
  cases failure <;> rfl

/-- Feeds are alike when they agree in all but the counters. -/
theorem uncounted_eq_iff :
    f.uncounted = g.uncounted ↔
      f.factory = g.factory ∧ f.unblock = g.unblock ∧ f.settings = g.settings ∧
        f.arena.uncounted = g.arena.uncounted ∧ f.link = g.link := by
  simp only [uncounted, mk.injEq]

/-- Giving the stream back does not look at the arena. -/
theorem release_alike (h : f.uncounted = g.uncounted) :
    f.release.within uncounted = g.release.within uncounted := by
  obtain ⟨hfactory, hunblock, hsettings, harena, hlink⟩ := uncounted_eq_iff.mp h
  unfold release
  rw [← hlink]
  cases f.link with
  | connected scanner =>
    have hnext : ({ f with link := .idle } : Feed ω φ η).uncounted =
        ({ g with link := .idle } : Feed ω φ η).uncounted :=
      uncounted_eq_iff.mpr ⟨hfactory, hunblock, hsettings, harena, rfl⟩
    simp only [Reply.within, hnext]
  | idle | closed => simp only [Reply.within, h]

/-- Nor does what is done at the end of a read. -/
theorem settle_alike (h : f.uncounted = g.uncounted) (message : Message) (ending : Ending)
    (events : List Event) :
    (f.settle message ending events).within uncounted =
      (g.settle message ending events).within uncounted := by
  have hrelease := release_alike h
  simp only [Reply.within, Reply.mk.injEq] at hrelease
  obtain ⟨-, hnext, hevents⟩ := hrelease
  -- each ending keeps the feed or gives its stream back
  cases ending <;> simp only [settle, Reply.within, h, hnext, hevents]

end Frames

/-- Alike feeds read the same.  The answer holds the message, and where its parts lie is part of
    it. -/
theorem read_alike (h : f.uncounted = g.uncounted) :
    (f.read w).within uncounted = (g.read w).within uncounted := by
  obtain ⟨hfactory, hunblock, hsettings, harena, hlink⟩ := uncounted_eq_iff.mp h
  cases hf : f.link with
  | connected scanner =>
    have hgather : (gather w f.settings.multipart scanner { arena := f.arena }).within
        leaveUncounted =
        (gather w f.settings.multipart scanner { arena := g.arena }).within leaveUncounted :=
      gather_alike (congrArg (Assembly.mk · {}) harena)
    rw [read_connected hf, read_connected (hlink ▸ hf), ← hsettings]
    -- only what both gatherings left matters from here on
    generalize gather w f.settings.multipart scanner { arena := f.arena } = left at hgather ⊢
    generalize gather w f.settings.multipart scanner { arena := g.arena } = right at hgather ⊢
    obtain ⟨answer, ⟨next, assembly⟩, events⟩ := left
    obtain ⟨answer', ⟨next', assembly'⟩, events'⟩ := right
    simp only [Reply.within, leaveUncounted, Assembly.uncounted, Reply.mk.injEq, Prod.mk.injEq,
      Assembly.mk.injEq] at hgather
    obtain ⟨rfl, ⟨rfl, harena', hmessage⟩, rfl⟩ := hgather
    simp only [hmessage]
    refine settle_alike ?_ _ _ _
    exact uncounted_eq_iff.mpr ⟨hfactory, hunblock, rfl, harena', rfl⟩
  | idle | closed =>
    have hfree : f.link.isConnected = false := by rw [hf]; rfl
    rw [read_not_connected hfree, read_not_connected (hlink ▸ hfree)]
    simp only [Reply.within, h]

variable [StreamFactory ω φ η]

omit [ByteSource ω η] in
/-- Alike feeds connect the same. -/
theorem connect_alike (h : f.uncounted = g.uncounted) :
    (f.connect w).within uncounted = (g.connect w).within uncounted := by
  obtain ⟨hfactory, hunblock, hsettings, harena, hlink⟩ := uncounted_eq_iff.mp h
  -- all fields but the arena are the same, and connecting does not look at that one
  obtain ⟨factory, unblock, settings, arena, link⟩ := f
  obtain ⟨factory', unblock', settings', arena', link'⟩ := g
  obtain rfl : factory = factory' := hfactory
  obtain rfl : unblock = unblock' := hunblock
  obtain rfl : settings = settings' := hsettings
  obtain rfl : link = link' := hlink
  cases link with
  | connected scanner => simp only [connect, Reply.within, h]
  | closed => simp only [connect, Reply.within, h]
  | idle =>
    unfold connect
    dsimp only
    cases (StreamFactory.nextStream w factory).answer <;>
      simp only [Reply.within, uncounted, scannerOver, harena]

/-- **Alike feeds answer the same** whatever is asked, and stay alike.  One case for each request;
    the events are left out, since an acknowledgement that is left out has events of its own. -/
theorem ask_alike (h : f.uncounted = g.uncounted) (call : Call ω) :
    (call.ask f).answer = (call.ask g).answer ∧
      (call.ask f).next.uncounted = (call.ask g).next.uncounted := by
  obtain ⟨w, request⟩ := call
  cases request with
  | connect =>
    have hconnect := connect_alike (w := w) h
    simp only [Reply.within, Reply.mk.injEq] at hconnect
    exact ⟨congrArg Answer.done hconnect.1, hconnect.2.1⟩
  | read =>
    have hread := read_alike (w := w) h
    simp only [Reply.within, Reply.mk.injEq] at hread
    exact ⟨congrArg Answer.message hread.1, hread.2.1⟩
  | acknowledge failure =>
    -- an acknowledgement changes the counters only, on both sides
    refine ⟨by cases failure <;> rfl, ?_⟩
    exact (acknowledge_uncounted failure f).trans (h.trans (acknowledge_uncounted failure g).symm)
  | waitForClose milliseconds =>
    have hrelease := release_alike h
    simp only [Reply.within, Reply.mk.injEq] at hrelease
    exact ⟨rfl, hrelease.2.1⟩

end Feed

end RecordFeed
