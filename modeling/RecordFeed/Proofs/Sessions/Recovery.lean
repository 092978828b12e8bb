/-
  Errors and what can be done about them.

  A caller that drives a feed goes by one question about an error: is it worth connecting again?
  The answer is a matter of the error alone (`FeedError.isRecoverable`); whether it is right is a
  matter of the state that the feed is left in.

  1. **Invariant** (`Kept`).  A feed is closed exactly when its factory has said that there are no
     further streams, and the scanner that is held works under the limit of the settings.  Every
     call keeps this (`kept_of_ask`).

  2. **What a caller can rely on** (`Reliable`) follows from it: when the factory is asked, which
     errors there are, that a closed feed stays closed, and that a feed that can be recovered asks
     its factory at the next connect.
-/
import RecordFeed.Proofs.Messages.Visits
import RecordFeed.Proofs.Records.Conduct
import RecordFeed.Proofs.Sessions.Watch

namespace RecordFeed

/-- The error that a request was answered with. -/
def Answer.error? : Answer → Option FeedError
  | .done (.error error) | .message (.error error) => some error
  | .done (.ok _) | .message (.ok _) => none

namespace Feed

variable {ω φ η : Type}

/-! ## What a call leaves

  Two things are needed of a call: whether the feed still holds a stream, and which error it
  was answered with. -/

section Calls

variable {f : Feed ω φ η} {scanner : Scanner η Delimiter} {w : ω}

/-- A read of a stream that is held keeps it, under a scanner with the same limit, or gives it
    back. -/
theorem read_link [ByteSource ω η] (w : ω) (h : f.link = .connected scanner) :
    (f.read w).next.link = .idle ∨
      ∃ later : Scanner η Delimiter, (f.read w).next.link = .connected later ∧
        later.limit = scanner.limit := by
  have hlimit := (gather_leaves w f.settings.multipart scanner { arena := f.arena }).limit_eq
  rw [read_connected h]
  generalize gather w f.settings.multipart scanner { arena := f.arena } = gathered at hlimit ⊢
  obtain ⟨answer, ⟨later, assembly⟩, events⟩ := gathered
  -- only a complete message keeps the stream, under a scanner that has moved on
  cases answer with
  | complete => exact Or.inr ⟨later, rfl, hlimit⟩
  | drained => exact Or.inl rfl
  | failed error => exact Or.inl rfl

/-- The errors of a read.  The limit is that of the scanner, which the invariant ties to the
    settings. -/
theorem read_error_eq [ByteSource ω η] {error : FeedError} {limit : Nat}
    (hlimit : ∀ scanner, f.link = .connected scanner → scanner.limit = limit)
    (h : (f.read w).answer = .error error) :
    error = .notConnected ∨ error = .tokenTooLarge limit ∨ ∃ cause, error = .io cause := by
  cases hlink : f.link with
  | idle | closed =>
    have hfree : f.link.isConnected = false := by rw [hlink]; rfl
    rw [read_not_connected hfree] at h
    exact Or.inl (Except.error.inj h).symm
  | connected scanner =>
    have hfailed : ∀ cause,
        (gather w f.settings.multipart scanner { arena := f.arena }).answer = .failed cause →
          cause = .tokenTooLarge limit ∨ ∃ failure, cause = .io failure := by
      intro cause hcause
      rw [← hlimit scanner hlink]
      exact gather_failed hcause
    rw [read_connected hlink] at h
    generalize gather w f.settings.multipart scanner { arena := f.arena } = gathered at hfailed h
    obtain ⟨answer, ⟨later, assembly⟩, events⟩ := gathered
    cases answer with
    | complete => simp [settle] at h
    | drained =>
      -- the stream is over: an open message is given, and without one there is nothing to read
      by_cases hempty : assembly.message.isEmpty = true
      · simp only [settle, hempty, if_true] at h
        exact Or.inl (Except.error.inj h).symm
      · simp [settle, hempty] at h
    | failed cause =>
      obtain rfl := Except.error.inj h
      exact Or.inr (hfailed cause rfl)

variable [StreamFactory ω φ η]

/-- A feed that holds no stream and is asked for anything but a connection stays as it is. -/
theorem ask_of_free [ByteSource ω η] {call : Call ω} (h : f.link.isConnected = false)
    (hrequest : call.request ≠ .connect) :
    (call.ask f).next.link = f.link ∧ (call.ask f).next.factory = f.factory := by
  obtain ⟨w, request⟩ := call
  cases request with
  | connect => exact absurd rfl hrequest
  | read =>
    have hread : (f.read w).next = f := by rw [read_not_connected h]
    exact ⟨congrArg Feed.link hread, congrArg Feed.factory hread⟩
  | acknowledge failure => cases failure <;> exact ⟨rfl, rfl⟩
  | waitForClose milliseconds =>
    have hrelease : f.release.next = f := by
      unfold release
      cases hlink : f.link with
      | connected scanner => simp [hlink, Link.isConnected] at h
      | idle | closed => rfl
    exact ⟨congrArg Feed.link hrelease, congrArg Feed.factory hrelease⟩

/-- A closed feed refuses every connection. -/
theorem ask_of_closed [ByteSource ω η] (call : Call ω) (h : f.link = .closed) :
    (call.ask f).next.link = .closed ∧ (call.ask f).next.factory = f.factory ∧
      (call.ask f).answer.message? = none := by
  have hfree : f.link.isConnected = false := by rw [h]; rfl
  have hanswer := (ask_of_not_connected call hfree).1
  by_cases hrequest : call.request = .connect
  · obtain ⟨w, request⟩ := call
    obtain rfl : request = .connect := hrequest
    have hconnect : (f.connect w).next = f := by rw [connect_of_closed h]
    refine ⟨?_, congrArg Feed.factory hconnect, hanswer⟩
    exact (congrArg Feed.link hconnect).trans h
  · obtain ⟨hlink, hfactory⟩ := ask_of_free hfree hrequest
    exact ⟨hlink.trans h, hfactory, hanswer⟩

/-- A closed feed stays closed, gives no message and leaves its factory in peace, whatever is asked.
    By induction on the calls.  This is the half of `closed_for_good` that looks ahead. -/
theorem run_of_closed [ByteSource ω η] (calls : List (Call ω)) (h : f.link = .closed) :
    messagesRead calls f = [] ∧ (run calls f).next.factory = f.factory := by
  induction calls generalizing f with
  | nil => exact ⟨rfl, rfl⟩
  | cons call later ih =>
    obtain ⟨hlink, hfactory, hanswer⟩ := ask_of_closed call h
    obtain ⟨hmessages, hrest⟩ := ih hlink
    constructor
    · rw [messagesRead_cons, hanswer, hmessages]
      rfl
    · rw [run_cons_next, hrest, hfactory]

end Calls

/-! ## Connecting under watch

  The book of answers says how often the factory was asked and what it has said.  A feed does
  not see it. -/

section Watch

variable {w : ω} {f : Feed ω (Watched φ η) η}

/-- What comes of a connection that a factory is asked for.  In each of them the factory has been
    asked once. -/
inductive Connects (f : Feed ω (Watched φ η) η) :
    Reply (Feed ω (Watched φ η) η) (Except FeedError Unit) → Prop where
  | stream {reply} {handle : η} (answer : reply.answer = .ok ())
      (link : reply.next.link = .connected (f.scannerOver handle))
      (asked : reply.next.factory.answers = f.factory.answers ++ [.stream handle]) :
      Connects f reply
  | exhausted {reply} (answer : reply.answer = .error .closed) (link : reply.next.link = .closed)
      (asked : reply.next.factory.answers = f.factory.answers ++ [.exhausted]) : Connects f reply
  | failed {reply} {error : IoError} (answer : reply.answer = .error (.io error))
      (link : reply.next.link = .idle)
      (asked : reply.next.factory.answers = f.factory.answers ++ [.failed error]) :
      Connects f reply

/-- An idle feed asks its factory once. -/
theorem connects_of_idle [StreamFactory ω φ η] (w : ω) (h : f.link = .idle) :
    Connects f (f.connect w) := by
  obtain ⟨events, hconnect⟩ := connect_of_idle (w := w) h
  rw [hconnect]
  obtain ⟨⟨factory, answers, words⟩, unblock, settings, arena, link⟩ := f
  rcases hasked : StreamFactory.nextStream w factory with ⟨answer, next, spoken⟩
  simp only [StreamFactory.nextStream, hasked]
  cases answer with
  | stream handle => exact .stream rfl rfl rfl
  | exhausted => exact .exhausted rfl rfl rfl
  | failed error => exact .failed rfl h rfl

/-- The factory was asked once. -/
theorem Connects.asked_once {reply : Reply (Feed ω (Watched φ η) η) (Except FeedError Unit)}
    (h : Connects f reply) :
    ∃ opening, reply.next.factory.answers = f.factory.answers ++ [opening] := by
  cases h with
  | stream answer link asked => exact ⟨_, asked⟩
  | exhausted answer link asked => exact ⟨_, asked⟩
  | failed answer link asked => exact ⟨_, asked⟩

/-! ## Invariant

  What is known of a feed between any two calls, whatever errors there were.  It connects the
  situation of the feed with what its factory has said, which is the only way to tell that
  being closed is right. -/

/-- What holds of a feed between two calls.  The first part is what makes being closed a statement
    about the factory. -/
structure Kept (f : Feed ω (Watched φ η) η) : Prop where
  closed_iff : f.link = .closed ↔ f.factory.Exhausted
  limit_eq : ∀ scanner, f.link = .connected scanner → scanner.limit = f.settings.maxTokenSize

/-- Where neither the situation nor the factory changes, nothing is lost. -/
theorem Kept.of_same {g : Feed ω (Watched φ η) η} (h : f.Kept) (hlink : g.link = f.link)
    (hfactory : g.factory = f.factory) (hsettings : g.settings = f.settings) : g.Kept := by
  constructor
  · rw [hlink, hfactory]
    exact h.closed_iff
  · rw [hlink, hsettings]
    exact h.limit_eq

/-- A feed that is not closed, over a factory that has not said that there are no further
    streams. -/
theorem Kept.of_open (hopen : f.link ≠ .closed) (hmore : ¬ f.factory.Exhausted)
    (hlimit : ∀ scanner, f.link = .connected scanner → scanner.limit = f.settings.maxTokenSize) :
    f.Kept := by
  refine ⟨⟨fun hclosed => ?_, fun hexhausted => ?_⟩, hlimit⟩
  · exact absurd hclosed hopen
  · exact absurd hexhausted hmore

/-- A feed that is not closed has a factory that may have more. -/
theorem Kept.not_exhausted (h : f.Kept) (hopen : f.link ≠ .closed) : ¬ f.factory.Exhausted :=
  fun hexhausted => hopen (h.closed_iff.mpr hexhausted)

/-- An answer that is not the last word adds none. -/
theorem not_exhausted_of_append {g : Feed ω (Watched φ η) η} {opening : Opening η}
    (hmore : ¬ f.factory.Exhausted) (hopening : opening ≠ .exhausted)
    (h : g.factory.answers = f.factory.answers ++ [opening]) : ¬ g.factory.Exhausted := by
  intro hexhausted
  rw [Watched.Exhausted, h] at hexhausted
  rcases List.mem_append.mp hexhausted with hbefore | hnow
  · exact hmore hbefore
  · exact hopening (List.mem_singleton.mp hnow).symm

variable [StreamFactory ω φ η]

/-- Connecting keeps the invariant.  The feed closes itself at the answer that the factory has
    nothing more, and at no other. -/
theorem kept_of_connect (w : ω) (h : f.Kept) : (f.connect w).next.Kept := by
  cases hlink : f.link with
  | connected scanner =>
    rw [connect_of_connected hlink]
    exact h
  | closed =>
    rw [connect_of_closed hlink]
    exact h
  | idle =>
    have hmore : ¬ f.factory.Exhausted := h.not_exhausted (by simp [hlink])
    have hsettings := connect_settings w f
    cases connects_of_idle w hlink with
    | stream answer link asked =>
      -- a stream was given, so the factory has not said its last word
      refine Kept.of_open (by simp [link]) (not_exhausted_of_append hmore (by simp) asked) ?_
      intro scanner hscanner
      rw [link] at hscanner
      obtain rfl := Link.connected.inj hscanner
      rw [hsettings]
      rfl
    | exhausted answer link asked =>
      constructor
      · rw [link, Watched.Exhausted, asked]
        exact ⟨fun _ => List.mem_append_right _ (List.mem_singleton.mpr rfl), fun _ => rfl⟩
      · intro scanner hscanner
        simp [link] at hscanner
    | failed answer link asked =>
      refine Kept.of_open (by simp [link]) (not_exhausted_of_append hmore (by simp) asked) ?_
      intro scanner hscanner
      simp [link] at hscanner

variable [ByteSource ω η]

/-- **Every call keeps the invariant.** Only connecting an idle feed changes what the factory has
    said; the others are about the scanner. -/
theorem kept_of_ask (call : Call ω) (h : f.Kept) : (call.ask f).next.Kept := by
  have hsettings := ask_settings call f
  cases hlink : f.link with
  | idle | closed =>
    have hfree : f.link.isConnected = false := by rw [hlink]; rfl
    by_cases hrequest : call.request = .connect
    · obtain ⟨w, request⟩ := call
      obtain rfl : request = .connect := hrequest
      exact kept_of_connect w h
    · obtain ⟨hsame, hfactory⟩ := ask_of_free hfree hrequest
      exact h.of_same hsame hfactory hsettings
  | connected scanner =>
    obtain ⟨hfactory, hcases⟩ := ask_of_connected call hlink
    -- while a stream is held the factory is not asked
    have hmore : ¬ (call.ask f).next.factory.Exhausted := by
      rw [hfactory]
      exact h.not_exhausted (by simp [hlink])
    have hidle (hgone : (call.ask f).next.link = .idle) : (call.ask f).next.Kept := by
      refine Kept.of_open (by simp [hgone]) hmore ?_
      intro scanner' hscanner
      simp [hgone] at hscanner
    rcases hcases with ⟨hsame, -⟩ | ⟨hgone, -⟩ | ⟨hnext, -⟩
    · exact h.of_same (hsame.trans hlink.symm) hfactory hsettings
    · exact hidle hgone
    · rcases read_link call.surroundings hlink with hgone | ⟨later, hlater, hsame⟩
      · exact hidle ((congrArg Feed.link hnext).trans hgone)
      · -- the read kept the stream, under a scanner with the limit of the one before
        have hheld : (call.ask f).next.link = .connected later :=
          (congrArg Feed.link hnext).trans hlater
        refine Kept.of_open (by simp [hheld]) hmore ?_
        intro scanner' hscanner
        rw [hheld] at hscanner
        obtain rfl := Link.connected.inj hscanner
        rw [hsettings, hsame, h.limit_eq scanner hlink]

/-! ## What a caller can rely on

  A caller sees answers only.  So everything is said of the next call and of its error, and
  nothing of the link. -/

/-- What holds of a feed under a limit, whatever it is asked for next. -/
structure Reliable (limit : Nat) (f : Feed ω (Watched φ η) η) : Prop where
  /-- the factory is asked by a connect that finds no handle held, once, and not again after it has
      said that there are no further streams -/
  asks : ∀ call : Call ω, (call.ask f).next.factory = f.factory ∨
    (call.request = .connect ∧ f.link.isConnected = false ∧ ¬ f.factory.Exhausted ∧
      ∃ opening, (call.ask f).next.factory.answers = f.factory.answers ++ [opening])
  /-- the errors there are, and that no handle is held after a read that failed -/
  errors : ∀ (call : Call ω) (error : FeedError), (call.ask f).answer.error? = some error →
    (call.request = .connect ∧ (error = .closed ∨ ∃ cause, error = .io cause)) ∨
    (call.request = .read ∧ (call.ask f).next.link.isConnected = false ∧
      (error = .notConnected ∨ error = .tokenTooLarge limit ∨ ∃ cause, error = .io cause))
  /-- of these, only being closed cannot be recovered from -/
  recoverable_iff : ∀ (call : Call ω) (error : FeedError), (call.ask f).answer.error? = some error →
    (error.isRecoverable = false ↔ error = .closed)
  /-- after that there are no messages, and the factory is left in peace -/
  closed_for_good : ∀ call : Call ω, (call.ask f).answer.error? = some .closed →
    ∀ later : List (Call ω), messagesRead later (call.ask f).next = [] ∧
      (run later (call.ask f).next).next.factory = (call.ask f).next.factory
  /-- after any other error the next connect asks the factory, unless it has said that there are no
      further streams -/
  connects_again : ∀ (call : Call ω) (error : FeedError),
    (call.ask f).answer.error? = some error → error.isRecoverable = true →
    ∀ meanwhile : List (Call ω), (∀ other ∈ meanwhile, other.request ≠ .connect) →
    ∀ w : ω, let waiting := (run meanwhile (call.ask f).next).next
      ¬ waiting.factory.Exhausted →
        ∃ opening, (waiting.connect w).next.factory.answers = waiting.factory.answers ++ [opening]

omit [ByteSource ω η] in
/-- A connection is refused because there are no further streams, or because a stream could not be
    opened.  Either way no handle is held. -/
theorem connect_error {error : FeedError} (h : (f.connect w).answer = .error error) :
    (error = .closed ∧ (f.connect w).next.link = .closed) ∨
      ((∃ cause, error = .io cause) ∧ (f.connect w).next.link = .idle) := by
  cases hlink : f.link with
  | connected scanner => simp [connect_of_connected hlink] at h
  | closed =>
    rw [connect_of_closed hlink] at h ⊢
    exact Or.inl ⟨(Except.error.inj h).symm, hlink⟩
  | idle =>
    cases connects_of_idle w hlink with
    | stream answer link asked => simp [answer] at h
    | exhausted answer link asked =>
      rw [answer] at h
      exact Or.inl ⟨(Except.error.inj h).symm, link⟩
    | failed answer link asked =>
      rw [answer] at h
      exact Or.inr ⟨⟨_, (Except.error.inj h).symm⟩, link⟩

/-- **The errors of a call.** Only connecting and reading fail, and after a failure no handle is
    held.  Of a connection, the link afterwards is said as well, since what can be done next depends
    on it. -/
theorem ask_error {limit : Nat} {call : Call ω} {error : FeedError}
    (hlimit : ∀ scanner, f.link = .connected scanner → scanner.limit = limit)
    (h : (call.ask f).answer.error? = some error) :
    (call.request = .connect ∧ (error = .closed ∧ (call.ask f).next.link = .closed ∨
      (∃ cause, error = .io cause) ∧ (call.ask f).next.link = .idle)) ∨
    (call.request = .read ∧ (call.ask f).next.link.isConnected = false ∧
      (error = .notConnected ∨ error = .tokenTooLarge limit ∨ ∃ cause, error = .io cause)) := by
  obtain ⟨w, request⟩ := call
  cases request with
  | connect =>
    have hanswer : (f.connect w).answer = .error error := by
      cases hconnect : (f.connect w).answer with
      | ok done => simp [Call.ask, Answer.error?, hconnect] at h
      | error cause => simpa [Call.ask, Answer.error?, hconnect] using h
    exact Or.inl ⟨rfl, connect_error hanswer⟩
  | read =>
    have hanswer : (f.read w).answer = .error error := by
      cases hread : (f.read w).answer with
      | ok message => simp [Call.ask, Answer.error?, hread] at h
      | error cause => simpa [Call.ask, Answer.error?, hread] using h
    exact Or.inr ⟨rfl, read_error_link hanswer, read_error_eq hlimit hanswer⟩
  | acknowledge failure => cases failure <;> simp [Call.ask, Answer.error?, acknowledge] at h
  | waitForClose milliseconds =>
    have hanswer : (Call.mk w (.waitForClose milliseconds)).ask f =
        (f.waitForClose milliseconds).map .done := rfl
    rw [hanswer] at h
    simp [Answer.error?, waitForClose] at h

/-- The factory is asked by an idle feed that is to be connected, and by no other.  That it has not
    said so before is the invariant. -/
theorem asks_of_kept (h : f.Kept) (call : Call ω) :
    (call.ask f).next.factory = f.factory ∨
    (call.request = .connect ∧ f.link.isConnected = false ∧ ¬ f.factory.Exhausted ∧
      ∃ opening, (call.ask f).next.factory.answers = f.factory.answers ++ [opening]) := by
  cases hlink : f.link with
  | connected scanner => exact Or.inl (ask_of_connected call hlink).1
  | closed => exact Or.inl (ask_of_closed call hlink).2.1
  | idle =>
    have hfree : f.link.isConnected = false := by rw [hlink]; rfl
    by_cases hrequest : call.request = .connect
    · obtain ⟨w, request⟩ := call
      obtain rfl : request = .connect := hrequest
      have hmore : ¬ f.factory.Exhausted := h.not_exhausted (by simp [hlink])
      exact Or.inr ⟨rfl, rfl, hmore, (connects_of_idle w hlink).asked_once⟩
    · exact Or.inl (ask_of_free hfree hrequest).2

/-- A feed without a handle whose factory may have more asks it at the next connect.  By induction
    on the calls until then.  No call but a connect gives it a handle or closes it. -/
theorem connects_again_of_kept {meanwhile : List (Call ω)} (h : f.Kept)
    (hfree : f.link.isConnected = false)
    (hmeanwhile : ∀ other ∈ meanwhile, other.request ≠ .connect) (w : ω)
    (hmore : ¬ (run meanwhile f).next.factory.Exhausted) :
    ∃ opening, ((run meanwhile f).next.connect w).next.factory.answers =
      (run meanwhile f).next.factory.answers ++ [opening] := by
  have hlast : (run meanwhile f).next.link.isConnected = false ∧ (run meanwhile f).next.Kept := by
    refine run_invariant
      (P := fun g : Feed ω (Watched φ η) η => g.link.isConnected = false ∧ g.Kept) ?_ ⟨hfree, h⟩
    rintro other hother g ⟨hg, hkept⟩
    rw [(ask_of_free hg (hmeanwhile other hother)).1]
    exact ⟨hg, kept_of_ask other hkept⟩
  obtain ⟨hstill, hkept⟩ := hlast
  -- neither held nor closed
  have hidle : (run meanwhile f).next.link = .idle :=
    Link.eq_idle hstill fun hclosed => hmore (hkept.closed_iff.mp hclosed)
  exact (connects_of_idle w hidle).asked_once

/-- The invariant is what a caller can rely on.  Each part is one of the lemmas above, read for the
    call that comes next. -/
theorem Kept.reliable (h : f.Kept) : Reliable f.settings.maxTokenSize f where
  asks := asks_of_kept h
  errors call error herror := by
    rcases ask_error h.limit_eq herror with ⟨hrequest, hcause⟩ | hread
    · refine Or.inl ⟨hrequest, ?_⟩
      rcases hcause with ⟨hclosed, -⟩ | ⟨hio, -⟩
      · exact Or.inl hclosed
      · exact Or.inr hio
    · exact Or.inr hread
  recoverable_iff call error herror := by
    -- of the errors there are, `closed` is the only one that cannot be recovered from
    rcases ask_error h.limit_eq herror with ⟨-, ⟨rfl, -⟩ | ⟨⟨cause, rfl⟩, -⟩⟩ | ⟨-, -, hread⟩
    · simp [FeedError.isRecoverable]
    · simp [FeedError.isRecoverable]
    · rcases hread with rfl | rfl | ⟨cause, rfl⟩ <;> simp [FeedError.isRecoverable]
  closed_for_good call herror later := by
    have hclosed : (call.ask f).next.link = .closed := by
      rcases ask_error h.limit_eq herror with ⟨-, ⟨-, hlink⟩ | ⟨⟨cause, hio⟩, -⟩⟩ | ⟨-, -, hread⟩
      · exact hlink
      · simp at hio
      · rcases hread with hread | hread | ⟨cause, hread⟩ <;> simp at hread
    exact run_of_closed later hclosed
  connects_again call error herror hrecoverable meanwhile hmeanwhile w hmore := by
    have hfree : (call.ask f).next.link.isConnected = false := by
      rcases ask_error h.limit_eq herror with ⟨-, ⟨-, hlink⟩ | ⟨-, hlink⟩⟩ | ⟨-, hread, -⟩
      · rw [hlink]; rfl
      · rw [hlink]; rfl
      · exact hread
    exact connects_again_of_kept (kept_of_ask call h) hfree hmeanwhile w hmore

/-- **An error says what can be done about it.**  Whatever the factory answers, whatever the streams
    do and whatever is asked of a feed on settings that fit together: being watched changes nothing,
    and after every operation a caller can rely on what `Reliable` says, under the limit of the
    settings. -/
theorem errors_reliable {factory : φ} {unblock : ω → ω} {settings : Settings} {f : Feed ω φ η}
    (hmake : make factory unblock settings = .ok f) (calls : List (Call ω)) :
    SaysOf f.watched (run calls f.watched) (run calls f) ∧
      Reliable settings.maxTokenSize (run calls f.watched).next := by
  refine ⟨run_unwatched calls f.watched, ?_⟩
  -- at the start no stream is held, and the book is empty
  have hstart : f.watched.Kept := by
    have hidle : f.watched.link = .idle := by
      show f.link = .idle
      exact link_of_make hmake
    refine Kept.of_open (by simp [hidle]) (by simp [Watched.Exhausted, watched]) ?_
    intro scanner hscanner
    simp [hidle] at hscanner
  have hlast : (run calls f.watched).next.Kept ∧
      (run calls f.watched).next.settings = f.watched.settings := by
    refine run_invariant
      (P := fun g : Feed ω (Watched φ η) η => g.Kept ∧ g.settings = f.watched.settings)
      ?_ ⟨hstart, rfl⟩
    rintro call - g ⟨hkept, hsettings⟩
    exact ⟨kept_of_ask call hkept, (ask_settings call g).trans hsettings⟩
  have hreliable := hlast.1.reliable
  rw [hlast.2] at hreliable
  have hsettings : f.watched.settings = settings := (of_make hmake).2
  rw [hsettings] at hreliable
  exact hreliable

/-- A failure that is recovered from: the next connect asks the factory, which refuses, and the one
    after that is given the second stream. -/
theorem errors_reliable_two_streams :
    make twoStreams Switch.throw { multipart := true } = .ok overTwoStreams ∧
    ((⟨⟨0⟩, .read⟩ : Call Switch).ask
      (run (readTwoStreams.take 2) overTwoStreams.watched).next).answer.error?.map
        FeedError.label = some "ingest.io" ∧
    Reliable 65536 (run (readTwoStreams.take 2) overTwoStreams.watched).next :=
  have hmake : make twoStreams Switch.throw { multipart := true } = .ok overTwoStreams := rfl
  ⟨hmake, by decide +kernel, (errors_reliable hmake (readTwoStreams.take 2)).2⟩

end Watch

end Feed

end RecordFeed
