/-
  Closing a feed from outside.

  Whoever holds the hook of a feed, the feed itself or a close handle, can have the surroundings end
  every read that blocks.  This may happen between any two calls, with half a record in the window
  or with several.  What the feed gives from then on is what it has already read, and nothing is
  lost of it.

  1. **Invariant** (`Feed.Rests`).  Between two calls the scanner that is held is at rest: its
     window is below the limit.  Every call keeps this, in whatever surroundings it is made
     (`rests_of_ask`).

  2. **Silence** (`Silent`).  When every read says that the stream is over, a scanner at rest gives
     the records of its window (`Scanner.remainder`), and none of them is too large.  A fresh
     scanner gives none.

  3. **Run** (`stay_of_silent`, `visits_of_silent`).  So the stream that is held comes to an end
     like one that consists of the bytes in the window, and every further stream is empty.
-/
import RecordFeed.Proofs.Messages.Visits
import RecordFeed.Proofs.Records.Resting

namespace RecordFeed

/-! ## Invariant

  A scanner at rest has a window below the limit.  A window at the limit would make a record in
  it too large, although it was read without a complaint. -/

section Gathering

variable {ω η : Type} [ByteSource ω η] {w : ω} {delimiter : Bytes} {limit : Nat}

/-- A complete message leaves the scanner at rest.  By induction on the records scanned, each of
    which leaves it so. -/
theorem gather_rests {multipart : Bool} {scanner : Scanner η Delimiter} {a : Assembly}
    (h : scanner.Runs delimiter limit)
    (hcomplete : (gather w multipart scanner a).answer = .complete) :
    (gather w multipart scanner a).next.1.Rests delimiter limit := by
  fun_induction gather w multipart scanner a with
  | case1 | case2 => simp at hcomplete
  | case3 scanner a reply record hanswer taken htaken => exact Scanner.nextToken_rests h hanswer
  | case4 scanner a reply record hanswer taken htaken ih =>
    exact ih (Scanner.nextToken_rests h hanswer).toRuns hcomplete

end Gathering

namespace Feed

variable {ω φ η : Type}

/-- Between two calls: the settings admit records, and the scanner that is held is at rest. -/
structure Rests (f : Feed ω φ η) : Prop where
  limit_pos : 0 < f.settings.maxTokenSize
  scanner_rests : ∀ scanner, f.link = .connected scanner →
    scanner.Rests f.settings.delimiterBytes f.settings.maxTokenSize

/-- A feed begins at rest. -/
theorem rests_of_make {factory : φ} {unblock : ω → ω} {settings : Settings} {f : Feed ω φ η}
    (h : make factory unblock settings = .ok f) : f.Rests := by
  have hidle := link_of_make h
  have hsettings := (of_make h).2
  have hfits := (settings.validate_eq_ok_iff.mp (validate_of_make h)).2.1
  refine ⟨?_, fun scanner hscanner => ?_⟩
  · rw [hsettings]
    omega
  · simp [hidle] at hscanner

/-- Where no stream is held, nothing has to rest. -/
theorem Rests.of_not_connected {f g : Feed ω φ η} (h : f.Rests) (hsettings : g.settings = f.settings)
    (hfree : g.link.isConnected = false) : g.Rests := by
  refine ⟨hsettings ▸ h.limit_pos, fun scanner hscanner => ?_⟩
  simp [hscanner, Link.isConnected] at hfree

/-- Where one is held, its scanner has to rest. -/
theorem Rests.of_connected {f g : Feed ω φ η} {scanner : Scanner η Delimiter} (h : f.Rests)
    (hsettings : g.settings = f.settings) (hlink : g.link = .connected scanner)
    (hscanner : scanner.Rests f.settings.delimiterBytes f.settings.maxTokenSize) : g.Rests := by
  refine ⟨hsettings ▸ h.limit_pos, fun other hother => ?_⟩
  obtain rfl := Link.connected.inj (hlink.symm.trans hother)
  rwa [hsettings]

variable [StreamFactory ω φ η] [ByteSource ω η] {w : ω} {f : Feed ω φ η}
  {scanner : Scanner η Delimiter} {calls : List (Call ω)}

omit [StreamFactory ω φ η] in
/-- A read that keeps the stream leaves its scanner at rest. -/
theorem rests_of_read (w : ω) (h : f.Rests) : (f.read w).next.Rests := by
  have hsettings := read_settings w f
  cases hlink : f.link with
  | idle | closed =>
    have hfree : f.link.isConnected = false := by rw [hlink]; rfl
    rw [read_not_connected hfree]
    exact h
  | connected scanner =>
    have hrests : (gather w f.settings.multipart scanner { arena := f.arena }).answer = .complete →
        (gather w f.settings.multipart scanner { arena := f.arena }).next.1.Rests
          f.settings.delimiterBytes f.settings.maxTokenSize :=
      gather_rests (h.scanner_rests scanner hlink).toRuns
    rw [read_connected hlink] at hsettings ⊢
    generalize gather w f.settings.multipart scanner { arena := f.arena } = gathered
      at hrests hsettings ⊢
    obtain ⟨answer, ⟨later, assembly⟩, events⟩ := gathered
    -- only a complete message keeps the stream
    cases answer with
    | complete => exact h.of_connected hsettings rfl (hrests rfl)
    | drained => exact h.of_not_connected hsettings rfl
    | failed error => exact h.of_not_connected hsettings rfl

/-- **Every call leaves the feed at rest.** By the situation of the feed: a stream is kept, given
    back, read from or taken up. -/
theorem rests_of_ask (call : Call ω) (h : f.Rests) : (call.ask f).next.Rests := by
  have hsettings := ask_settings call f
  cases hlink : f.link with
  | connected scanner =>
    rcases (ask_of_connected call hlink).2 with ⟨hkept, -⟩ | ⟨hidle, -⟩ | ⟨hnext, -⟩
    · exact h.of_connected hsettings hkept (h.scanner_rests scanner hlink)
    · exact h.of_not_connected hsettings (by rw [hidle]; rfl)
    · rw [hnext]
      exact rests_of_read call.surroundings h
  | idle | closed =>
    have hfree : f.link.isConnected = false := by rw [hlink]; rfl
    cases hheld : (call.ask f).next.link with
    | idle | closed => exact h.of_not_connected hsettings (by rw [hheld]; rfl)
    | connected scanner =>
      -- the scanner has just been put over a stream
      have hopened : f.link.opened? (call.ask f).next.link = some scanner.handle := by
        rw [Link.opened?, if_neg (by simp [hfree]), hheld]
        rfl
      exact h.of_connected hsettings (link_of_opened hopened).2
        (Scanner.rests_fresh h.limit_pos scanner.handle)

/-! ## Silence

  From here on the surroundings are silent at every call.  What was proved for surroundings
  that do not change applies, with the remainder in place of the scan of a stream. -/

/-- The bytes that were read and not yet consumed. -/
def held (f : Feed ω φ η) : Bytes :=
  match f.link with
  | .connected scanner => scanner.window.toList
  | _ => []

/-- The scan of these bytes, taken as a whole stream. -/
def heldScan (f : Feed ω φ η) : Scan :=
  cut f.settings.delimiterBytes f.settings.maxTokenSize .over f.held

omit [StreamFactory ω φ η] [ByteSource ω η] in
/-- What the scanner makes of its window is what the feed says of the bytes held. -/
theorem Rests.remainder_eq (h : f.Rests) (hlink : f.link = .connected scanner) :
    scanner.remainder = f.heldScan := by
  have hscanner := h.scanner_rests scanner hlink
  rw [Scanner.remainder, hscanner.policy_eq, hscanner.limit_eq, heldScan, held, hlink]

omit [StreamFactory ω φ η] [ByteSource ω η] in
/-- No record that is held is too large. -/
theorem Rests.heldScan_outcome (h : f.Rests) : f.heldScan.outcome = .ok () := by
  cases hlink : f.link with
  | connected scanner =>
    rw [← h.remainder_eq hlink]
    exact (h.scanner_rests scanner hlink).remainder_outcome
  | idle | closed =>
    rw [heldScan, held, hlink, cut_nil h.limit_pos]

omit [StreamFactory ω φ η] in
/-- In silent surroundings the scanners of feeds at rest come to what their windows hold.  That is
    the assumption on scanners in `stay_follows_of` and `visits_follow_of`. -/
theorem drain_of_silent (hsilent : ∀ call ∈ calls, Silent η call.surroundings) :
    ∀ call ∈ calls, ∀ (f : Feed ω φ η) (scanner : Scanner η Delimiter), f.Rests →
      f.link = .connected scanner → scanner.drain call.surroundings = scanner.remainder :=
  fun call hcall _ scanner hrests hlink =>
    (hrests.scanner_rests scanner hlink).drain_eq (hsilent call hcall)

/-- **The stream that is held** comes to an end like one that consists of the bytes held.  The
    invariant `P` of `stay_follows_of` is that the feed rests. -/
theorem stay_of_silent (hsilent : ∀ call ∈ calls, Silent η call.surroundings) (h : f.Rests)
    (hlink : f.link = .connected scanner) :
    (stay calls f).Follows f.settings.multipart f.heldScan := by
  rw [← h.remainder_eq hlink]
  exact stay_follows_of Scanner.remainder (fun call _ _ hf => rests_of_ask call hf)
    (drain_of_silent hsilent) h hlink

/-- The message that a read gave back with its stream is one of the stay.  By induction on the
    calls. -/
theorem mem_of_parting {message : Message}
    (h : (stay calls f).parting = some (.ok message)) : message ∈ (stay calls f).messages := by
  induction calls generalizing f with
  | nil => simp [stay] at h
  | cons call later ih =>
    rw [stay] at h ⊢
    cases hheld : (call.ask f).next.link.isConnected with
    | true =>
      rw [hheld] at h
      exact List.mem_append_right _ (ih h)
    | false =>
      rw [hheld] at h
      -- the stream is given back by this call, and its answer is the last of the stay
      have hanswer : (call.ask f).answer.read? = some (.ok message) := h
      refine List.mem_append_left _ ?_
      cases hmessage : (call.ask f).answer with
      | done outcome => simp [hmessage, Answer.read?] at hanswer
      | message outcome =>
        rw [hmessage] at hanswer
        obtain rfl := Option.some.inj hanswer
        exact List.mem_singleton.mpr rfl

/-- So is the one of a visit.  By induction on the calls, up to the one that takes the stream up. -/
theorem mem_of_visit_parting {visit : Visit η} {message : Message} (hvisit : visit ∈ visits calls f)
    (h : visit.parting = some (.ok message)) : message ∈ visit.messages := by
  induction calls generalizing f with
  | nil => simp [visits] at hvisit
  | cons call later ih =>
    rw [visits] at hvisit
    cases hopened : f.link.opened? (call.ask f).next.link with
    | none =>
      rw [hopened] at hvisit
      exact ih hvisit
    | some stream =>
      rw [hopened] at hvisit
      rcases List.mem_cons.mp hvisit with rfl | hmem
      · exact mem_of_parting h
      · exact ih hmem

/-- **Every stream taken up in silence** gives no message, and a read that gives it back says that
    there is none.  The scanner over it is fresh, so there is nothing in its window. -/
theorem visits_of_silent (hsilent : ∀ call ∈ calls, Silent η call.surroundings) (h : f.Rests) :
    ∀ visit ∈ visits calls f, visit.messages = [] ∧
      ∀ answer, visit.parting = some answer → answer = .error .notConnected := by
  intro visit hvisit
  have hfollows := visits_follow_of Scanner.remainder (fun call _ _ hf => rests_of_ask call hf)
    (drain_of_silent hsilent) h visit hvisit
  have hempty : (f.scannerOver visit.stream).remainder = { records := [], outcome := .ok () } :=
    cut_nil h.limit_pos
  rw [hempty] at hfollows
  -- no bytes, no records, no messages
  have hnone : visit.messages = [] := by
    have hprefix := hfollows.in_order
    have hmessages :
        Scan.messages f.settings.multipart { records := [], outcome := .ok () } = [] := by
      cases f.settings.multipart <;> rfl
    rw [hmessages, List.prefix_nil, List.map_eq_nil_iff] at hprefix
    exact hprefix
  refine ⟨hnone, fun answer hanswer => ?_⟩
  cases answer with
  | ok message =>
    have hmem := mem_of_visit_parting hvisit hanswer
    simp [hnone] at hmem
  | error error => rw [hfollows.failure error hanswer]; rfl

/-- In silence a read fails in one way only. -/
theorem ask_error_of_silent {call : Call ω} (hw : Silent η call.surroundings) (h : f.Rests)
    {error : FeedError} (herror : (call.ask f).answer.read? = some (.error error)) :
    error = .notConnected := by
  obtain ⟨w, request⟩ := call
  cases request with
  | connect | acknowledge failure | waitForClose milliseconds =>
    simp [Call.ask, Answer.read?] at herror
  | read =>
    have hread : (f.read w).answer = .error error := Option.some.inj herror
    cases hlink : f.link with
    | idle | closed =>
      have hfree : f.link.isConnected = false := by rw [hlink]; rfl
      rw [read_not_connected hfree] at hread
      exact (Except.error.inj hread).symm
    | connected scanner =>
      -- the scan that a failing read reports is that of the window, which has no error
      have hspec := read_spec (w := w) hlink
      rw [(h.scanner_rests scanner hlink).drain_eq hw, h.remainder_eq hlink] at hspec
      cases hspec with
      | first answer | last answer => simp [answer] at hread
      | none answer =>
        rw [answer, Scan.failure, h.heldScan_outcome] at hread
        exact (Except.error.inj hread).symm

/-- The same of every read of a run.  By induction on the calls. -/
theorem run_errors_of_silent (hsilent : ∀ call ∈ calls, Silent η call.surroundings) (h : f.Rests) :
    ∀ answer ∈ (run calls f).answer, ∀ error, answer.read? = some (.error error) →
      error = .notConnected := by
  induction calls generalizing f with
  | nil => simp
  | cons call later ih =>
    obtain ⟨hhere, hlater⟩ := List.forall_mem_cons.mp hsilent
    rw [run_cons_answer, List.forall_mem_cons]
    exact ⟨fun error => ask_error_of_silent hhere h, ih hlater (rests_of_ask call h)⟩

/-- All that is read in silence are messages of the bytes held. -/
theorem messagesRead_of_silent (hsilent : ∀ call ∈ calls, Silent η call.surroundings)
    (h : f.Rests) :
    (messagesRead calls f).map Message.payloads <+: f.heldScan.messages f.settings.multipart := by
  -- later streams add nothing
  have hnothing : ((visits calls f).flatMap fun visit => visit.messages) = [] :=
    List.flatMap_eq_nil_iff.mpr fun visit hvisit => (visits_of_silent hsilent h visit hvisit).1
  rw [messagesRead_eq, hnothing, List.append_nil]
  cases hlink : f.link with
  | connected scanner => exact (stay_of_silent hsilent h hlink).in_order
  | idle | closed => exact List.nil_prefix

/-! ## The hook

  A close handle holds the hook of the feed and nothing else of it, and no call replaces the
  hook. -/

omit [StreamFactory ω φ η] [ByteSource ω η] in
@[simp] theorem release_unblock (f : Feed ω φ η) : f.release.next.unblock = f.unblock := by
  cases h : f.link <;> simp [release, h]

/-- No call changes the hook. -/
@[simp] theorem ask_unblock (call : Call ω) (f : Feed ω φ η) :
    (call.ask f).next.unblock = f.unblock := by
  obtain ⟨w, request⟩ := call
  cases request with
  | connect =>
    show (f.connect w).next.unblock = f.unblock
    cases h : f.link with
    | connected scanner => rw [connect_of_connected h]
    | closed => rw [connect_of_closed h]
    | idle =>
      obtain ⟨events, hconnect⟩ := connect_of_idle (w := w) h
      rw [hconnect]
      cases StreamFactory.nextStream w f.factory with
      | mk answer factory events => cases answer <;> rfl
  | read =>
    show (f.read w).next.unblock = f.unblock
    cases h : f.link with
    | idle | closed => rw [read_not_connected (by rw [h]; rfl)]
    | connected scanner =>
      rw [read_connected h]
      cases hend : (gather w f.settings.multipart scanner { arena := f.arena }).answer <;>
        simp [settle, hend]
  | acknowledge failure => cases failure <;> rfl
  | waitForClose milliseconds => exact release_unblock f

/-- So a close handle that was taken early fires the hook that the feed has later. -/
theorem run_unblock (calls : List (Call ω)) (f : Feed ω φ η) :
    (run calls f).next.unblock = f.unblock :=
  run_invariant (P := fun g : Feed ω φ η => g.unblock = f.unblock)
    (fun call _ g hg => (ask_unblock call g).trans hg) rfl

/-- **Closed from outside, a feed gives what it has already read.**  The hook of a feed is fired
    after any calls, in whatever surroundings they were made, and throws the switch; a close handle
    fires the same hook, whenever it was taken.  Whatever is asked from then on:

    * the messages read are the first ones that the bytes held in the window make as a whole stream,
      and all of them if a read gives the stream back;
    * their bytes are bytes of the window, in order;
    * none of the reads fails but for want of a stream;
    * of a stream that is taken up later nothing is read, and a read that gives it back says that it
      holds no message. -/
theorem closing_gives_held {offers : Offers} {unblock : Switch → Switch} {settings : Settings}
    {f₀ f : Feed Switch Offers Script} (hmake : make offers unblock settings = .ok f₀)
    {before : List (Call Switch)} (hreached : f = (run before f₀).next) {w : Switch}
    (hfired : Switch.thrown (MessageReader.closeAsync f w) ≠ 0) {later : List (Call Switch)}
    (hlater : ∀ call ∈ later,
      Switch.thrown (MessageReader.closeAsync f w) ≤ call.surroundings.thrown) :
    (∀ earlier : List (Call Switch),
      (run earlier f₀).next.closeHandle.close w = MessageReader.closeAsync f w) ∧
    (messagesRead later f).map Message.payloads <+: f.heldScan.messages settings.multipart ∧
    (f.link.isConnected → (stay later f).Follows settings.multipart f.heldScan) ∧
    ((messagesRead later f).flatMap Message.payloads).flatten.Sublist f.held ∧
    (∀ answer ∈ (run later f).answer, ∀ error, answer.read? = some (.error error) →
      error = .notConnected) ∧
    ∀ visit ∈ visits later f, visit.messages = [] ∧
      ∀ answer, visit.parting = some answer → answer = .error .notConnected := by
  have hrests : f.Rests := by
    rw [hreached]
    exact run_invariant (fun call _ g hg => rests_of_ask call hg) (rests_of_make hmake)
  have hsettings : f.settings = settings := by
    rw [hreached]
    exact run_invariant (P := fun g : Feed Switch Offers Script => g.settings = settings)
      (fun call _ g hg => (ask_settings call g).trans hg) (of_make hmake).2
  have hsilent : ∀ call ∈ later, Silent Script call.surroundings := by
    intro call hcall
    have hle := hlater call hcall
    exact Switch.silent (by omega)
  have hread := messagesRead_of_silent hsilent hrests
  refine ⟨fun earlier => ?_, hsettings ▸ hread, fun hconnected => ?_, ?_,
    run_errors_of_silent hsilent hrests, visits_of_silent hsilent hrests⟩
  · show (run earlier f₀).next.unblock w = f.unblock w
    rw [run_unblock, hreached, run_unblock]
  · cases hlink : f.link with
    | connected scanner => exact hsettings ▸ stay_of_silent hsilent hrests hlink
    | idle | closed => simp [hlink, Link.isConnected] at hconnected
  · -- messages are made of records, and records of bytes, both in order
    have hparts : ((messagesRead later f).flatMap Message.payloads).Sublist f.heldScan.records := by
      rw [List.flatMap_def]
      exact (hread.sublist.flatten.trans (Scan.messages_flatten_sublist _ _)).trans
        List.filter_sublist
    exact hparts.flatten.trans (cut_records_sublist ..)

/-- Requests that read the first message of the first stream. -/
def readOne : List (Call Switch) := [.connect, .read].map (Call.mk ⟨0⟩)

/-- The feed after them, with the next record in its window. -/
def midStream : Feed Switch Offers Script := (run readOne overTwoStreams).next

/-- Requests that read both streams to their ends, when the switch has been thrown. -/
def readOn : List (Call Switch) := [.read, .read, .connect, .read].map (Call.mk ⟨1⟩)

/-- The second record of the first stream was in the window when the switch was thrown.  It is the
    last message, and the second stream gives none. -/
theorem closing_gives_held_two_streams :
    make twoStreams Switch.throw { multipart := true } = .ok overTwoStreams ∧
    midStream = (run readOne overTwoStreams).next ∧
    Switch.thrown (MessageReader.closeAsync midStream ⟨0⟩) ≠ 0 ∧
    (∀ call ∈ readOn,
      Switch.thrown (MessageReader.closeAsync midStream ⟨0⟩) ≤ call.surroundings.thrown) ∧
    midStream.held = [98] ∧
    (messagesRead readOn midStream).map Message.payloads = [[[98]]] ∧
    (messagesRead readOn midStream).map Message.payloads <+: midStream.heldScan.messages true :=
  have hmake : make twoStreams Switch.throw { multipart := true } = .ok overTwoStreams := rfl
  have hreached : midStream = (run readOne overTwoStreams).next := rfl
  have hfired : Switch.thrown (MessageReader.closeAsync midStream ⟨0⟩) ≠ 0 := by decide +kernel
  have hlater : ∀ call ∈ readOn,
      Switch.thrown (MessageReader.closeAsync midStream ⟨0⟩) ≤ call.surroundings.thrown := by
    decide +kernel
  ⟨hmake, hreached, hfired, hlater, by decide +kernel, by decide +kernel,
    (closing_gives_held hmake hreached hfired hlater).2.1⟩

end Feed

end RecordFeed
