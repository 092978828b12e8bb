/-
  The messages of every stream, whatever is asked.

  A feed takes up one stream after another, and its callers may connect, read, acknowledge and give
  streams back in any order.  What is read of one stream depends on that stream alone.

  1. **History** (`stay`, `visits`).  A run is parted by the streams that it takes up: for every one
     of them, the messages read as long as it was held, and the answer of the read that gave it back
     if a read did.

  2. **Reference** (`Script.scan`, `Scan.messages`).  The records of the stream, cut without regard
     to reads, and the messages that they make.

  3. **The crux** (`stay_follows_of`).  What the scanner that is held still gives determines the
     messages ahead, and every read takes the first of them.  No other call touches the scanner, and
     the scanner over the next stream is a fresh one, so that nothing is left of a stream when it is
     given back.

  4. **Run** (`visits_follow`).  The messages read of a stream are the first ones of its messages,
     and all of them if a read gave the stream back.
-/
import RecordFeed.Proofs.Messages.Assembly
import RecordFeed.Proofs.Sessions.FeedCalls

namespace RecordFeed

/-- The records of a scripted stream, and how they end. -/
def Script.scan (settings : Settings) (s : Script) : Scan :=
  cut settings.delimiterBytes settings.maxTokenSize (ending s.cues) (content s.cues)

namespace Offers

/-- The streams among the offers, up to the first time that there is nothing. -/
def streamsOf : List Offer → List Script
  | .stream script :: rest => script :: streamsOf rest
  | .refused _ :: rest => streamsOf rest
  | .nothing :: _ | [] => []

/-- The streams that a factory has to offer. -/
def streams (offers : Offers) : List Script := streamsOf offers.upcoming

end Offers

/-! ## What is read of one stream

  `Follows` is said of a scan and not of a stream, because a scanner that is held in the middle
  of a stream has a scan as well.  This makes the induction in `stay_follows_of` go through. -/

/-- What was read of a stream as long as it was held. -/
structure Stay where
  messages : List Message := []
  /-- the answer of the read that gave the stream back, if a read did -/
  parting : Option (Except FeedError Message) := none

/-- A stream that was taken up, and what was read of it. -/
structure Visit (η : Type) extends Stay where
  stream : η

/-- The messages of a stay are the first ones of a scan, and all of them if a read gave the stream
    back.  A read that fails says how the scan ended. -/
structure Stay.Follows (multipart : Bool) (scan : Scan) (stay : Stay) : Prop where
  in_order : stay.messages.map Message.payloads <+: scan.messages multipart
  whole : ∀ answer, stay.parting = some answer →
    stay.messages.map Message.payloads = scan.messages multipart
  failure : ∀ error, stay.parting = some (.error error) → error = scan.failure

/-- What an answer adds to a stay. -/
def Stay.after (answer : Answer) (stay : Stay) : Stay :=
  { stay with messages := answer.message?.toList ++ stay.messages }

namespace Stay

variable {multipart : Bool} {scan : Scan}

/-- Having read nothing, with the stream still held or given back without a read. -/
theorem follows_nil : ({} : Stay).Follows multipart scan :=
  ⟨List.nil_prefix, by simp, by simp⟩

/-- An answer without a message adds nothing. -/
theorem after_of_none {answer : Answer} (h : answer.message? = none) (stay : Stay) :
    stay.after answer = stay := by
  rw [after, h]
  rfl

/-- The first message ahead, before those that follow it. -/
theorem Follows.cons {stay : Stay} {message : Message} {rest : Scan}
    (h : stay.Follows multipart rest)
    (hahead : scan.messages multipart = message.payloads :: rest.messages multipart)
    (houtcome : rest.outcome = scan.outcome) :
    (stay.after (.message (.ok message))).Follows multipart scan := by
  refine ⟨?_, fun answer hanswer => ?_, fun error herror => ?_⟩
  · rw [hahead]
    exact List.cons_prefix_cons.mpr ⟨rfl, h.in_order⟩
  · rw [hahead]
    exact congrArg _ (h.whole answer hanswer)
  · rw [h.failure error herror, Scan.failure, houtcome, Scan.failure]

end Stay

/-- No message comes of a call that is not a read. -/
theorem Answer.message?_of_read? {answer : Answer} (h : answer.read? = none) :
    answer.message? = none := by
  cases answer with
  | done outcome => rfl
  | message outcome => simp [read?] at h

namespace Feed

section Histories

variable {ω φ η : Type} [StreamFactory ω φ η] [ByteSource ω η]

/-- What the calls read of the stream that is held, until it is given back. -/
def stay : List (Call ω) → Feed ω φ η → Stay
  | [], _ => {}
  | call :: later, f =>
    let reply := call.ask f
    let rest : Stay :=
      if reply.next.link.isConnected then stay later reply.next
      else { parting := reply.answer.read? }
    rest.after reply.answer

/-- The streams that the calls take up one after another, with what they read of each. -/
def visits : List (Call ω) → Feed ω φ η → List (Visit η)
  | [], _ => []
  | call :: later, f =>
    let next := (call.ask f).next
    match f.link.opened? next.link with
    | some stream => { stay later next with stream } :: visits later next
    | none => visits later next

variable {w : ω} {f : Feed ω φ η} {scanner : Scanner η Delimiter} {call : Call ω}
  {calls later : List (Call ω)}

/-- The equation of `stay` for a call that keeps the stream. -/
theorem stay_of_kept (h : (call.ask f).next.link = .connected scanner) :
    stay (call :: later) f = (stay later (call.ask f).next).after (call.ask f).answer := by
  rw [stay, h]
  rfl

/-- The equation for a call that gives it back.  Only a read is a parting. -/
theorem stay_of_left (h : (call.ask f).next.link = .idle) :
    stay (call :: later) f =
      Stay.after (call.ask f).answer { parting := (call.ask f).answer.read? } := by
  rw [stay, h]
  rfl

/-! ## One stream

  A scanner is taken along from call to call, and what it still gives is what the messages
  ahead are made of. -/

/-- **What is read of the stream that is held** are the first messages of a scan, if every scanner
    that is held comes to this scan wherever it is asked.  By induction on the calls: each of them
    leaves the scanner alone, reads the first message of it or gives it back.  `P` is what the
    caller knows of the feeds on the way; where the surroundings never change it is nothing at all
    (`visits_follow`). -/
theorem stay_follows_of {P : Feed ω φ η → Prop} (scan : Scanner η Delimiter → Scan)
    (hkept : ∀ call ∈ calls, ∀ f, P f → P (call.ask f).next)
    (hscan : ∀ call ∈ calls, ∀ f scanner, P f → f.link = .connected scanner →
      scanner.drain call.surroundings = scan scanner)
    (hf : P f) (h : f.link = .connected scanner) :
    (stay calls f).Follows f.settings.multipart (scan scanner) := by
  induction calls generalizing f scanner with
  | nil => exact Stay.follows_nil
  | cons call later ih =>
    obtain ⟨hhere, hlater⟩ := List.forall_mem_cons.mp hkept
    obtain ⟨hdrain, hdrains⟩ := List.forall_mem_cons.mp hscan
    have hnextP := hhere f hf
    rcases (ask_of_connected call h).2 with
      ⟨hlink, hread⟩ | ⟨hlink, hread, -⟩ | ⟨hnext, hanswer⟩
    · -- the scanner is left alone
      rw [stay_of_kept hlink, Stay.after_of_none (Answer.message?_of_read? hread)]
      rw [← ask_settings call f]
      exact ih hlater hdrains hnextP hlink
    · -- the stream is given back unread
      rw [stay_of_left hlink, Stay.after_of_none (Answer.message?_of_read? hread), hread]
      exact Stay.follows_nil
    · -- a read takes the first message of the scan, the last one or none
      have hspec := read_spec (w := call.surroundings) h
      rw [hdrain f scanner hf h] at hspec
      cases hspec with
      | @first message scanner' answer link ahead outcome =>
        have hlink := (congrArg Feed.link hnext).trans link
        rw [stay_of_kept hlink, hanswer, answer]
        have hsame : scanner'.drain call.surroundings = scan scanner' :=
          hdrain _ scanner' hnextP hlink
        rw [hsame] at ahead outcome
        refine Stay.Follows.cons ?_ ahead outcome
        rw [← ask_settings call f]
        exact ih hlater hdrains hnextP hlink
      | last answer link ahead outcome =>
        have hlink := (congrArg Feed.link hnext).trans link
        rw [stay_of_left hlink, hanswer, answer]
        refine ⟨?_, fun _ _ => ahead.symm, by simp [Answer.read?, Stay.after]⟩
        rw [ahead]
        exact List.prefix_rfl
      | none answer link ahead =>
        have hlink := (congrArg Feed.link hnext).trans link
        rw [stay_of_left hlink, hanswer, answer]
        refine ⟨List.nil_prefix, fun _ _ => ahead.symm, fun error herror => ?_⟩
        exact (Except.error.inj (Option.some.inj herror)).symm

/-! ## All streams

  A visit begins where a stream is taken up, with a fresh scanner over it. -/

/-- **What is read of each stream that is taken up** are the first messages of what a fresh scanner
    over it comes to.  By induction on the calls.  The feed keeps its settings, so that the scanner
    over a stream is the same whenever the stream is taken up. -/
theorem visits_follow_of {P : Feed ω φ η → Prop} (scan : Scanner η Delimiter → Scan)
    (hkept : ∀ call ∈ calls, ∀ f, P f → P (call.ask f).next)
    (hscan : ∀ call ∈ calls, ∀ f scanner, P f → f.link = .connected scanner →
      scanner.drain call.surroundings = scan scanner)
    (hf : P f) :
    ∀ visit ∈ visits calls f,
      visit.toStay.Follows f.settings.multipart (scan (f.scannerOver visit.stream)) := by
  induction calls generalizing f with
  | nil => simp [visits]
  | cons call later ih =>
    obtain ⟨hhere, hlater⟩ := List.forall_mem_cons.mp hkept
    have hdrains := (List.forall_mem_cons.mp hscan).2
    -- no call changes the settings
    have hsame (stream : η) : (call.ask f).next.scannerOver stream = f.scannerOver stream := by
      rw [scannerOver, ask_settings, scannerOver]
    have hrest := ih hlater hdrains (hhere f hf)
    rw [ask_settings] at hrest
    simp only [hsame] at hrest
    intro visit hvisit
    rw [visits] at hvisit
    cases hopened : f.link.opened? (call.ask f).next.link with
    | none =>
      rw [hopened] at hvisit
      exact hrest visit hvisit
    | some stream =>
      rw [hopened] at hvisit
      -- the visit that begins here, or a later one
      rcases List.mem_cons.mp hvisit with rfl | hmem
      · have hfollows := stay_follows_of scan hlater hdrains (hhere f hf) (link_of_opened hopened).2
        rwa [ask_settings] at hfollows
      · exact hrest visit hmem

/-- In surroundings that do not change, every scanner comes to one scan. -/
theorem visits_follow (hquiet : ∀ call ∈ calls, call.surroundings = w) (f : Feed ω φ η) :
    ∀ visit ∈ visits calls f,
      visit.toStay.Follows f.settings.multipart ((f.scannerOver visit.stream).drain w) := by
  refine visits_follow_of (P := fun _ => True) (Scanner.drain w) ?_ ?_ trivial
  · exact fun _ _ _ _ => trivial
  · intro call hcall _ scanner _ _
    rw [hquiet call hcall]

/-- **Nothing is read outside of the visits**: the messages of a run are those of the stream that it
    finds connected, if there is one, and then those of the streams that it takes up.  By induction
    on the calls. -/
theorem messagesRead_eq (calls : List (Call ω)) (f : Feed ω φ η) :
    messagesRead calls f =
      (if f.link.isConnected then (stay calls f).messages else []) ++
        (visits calls f).flatMap fun visit => visit.messages := by
  induction calls generalizing f with
  | nil => cases f.link.isConnected <;> rfl
  | cons call later ih =>
    rw [messagesRead_cons, ih, visits]
    cases hlink : f.link.isConnected with
    | true =>
      -- nothing is taken up while a stream is held, so the call belongs to the stay
      have hopened : f.link.opened? (call.ask f).next.link = none := if_pos hlink
      rw [hopened, stay]
      cases (call.ask f).next.link.isConnected <;>
        simp only [Stay.after, if_true, Bool.false_eq_true, if_false, List.append_assoc]
    | false =>
      -- nothing is read, and the stay that follows is the one of the first visit, if any
      have hopened : f.link.opened? (call.ask f).next.link = (call.ask f).next.link.handle? :=
        if_neg (by simp [hlink])
      rw [hopened, (ask_of_not_connected call hlink).1]
      cases (call.ask f).next.link <;> rfl

end Histories

/-! ## Scripted streams

  Which streams are taken up is a matter of the factory, and here it has a list of them. -/

/-- The streams that a feed can still take up. -/
def upcoming (f : Feed Switch Offers Script) : List Script :=
  match f.link with
  | .closed => []
  | _ => f.factory.streams

/-- A feed that is not closed can take up what its factory has. -/
theorem upcoming_of_ne_closed {f : Feed Switch Offers Script} (h : f.link ≠ .closed) :
    f.upcoming = f.factory.streams := by
  unfold upcoming
  split
  · contradiction
  · rfl

/-- A feed that is closed takes up none of them. -/
theorem upcoming_prefix (f : Feed Switch Offers Script) : f.upcoming <+: f.factory.streams := by
  unfold upcoming
  split
  · exact List.nil_prefix
  · exact List.prefix_rfl

/-- Connecting an idle feed takes up the next stream, or none. -/
theorem upcoming_of_connect {w : Switch} {f : Feed Switch Offers Script} (h : f.link = .idle) :
    (f.connect w).next.link.handle?.toList ++ (f.connect w).next.upcoming <+:
      f.factory.streams := by
  obtain ⟨events, hconnect⟩ := connect_of_idle (w := w) h
  rw [hconnect]
  obtain ⟨⟨offers⟩, unblock, settings, arena, link⟩ := f
  obtain rfl : link = .idle := h
  cases offers with
  | nil => exact List.nil_prefix
  | cons offer rest => cases offer <;> exact List.prefix_rfl

/-- A call takes up the next stream, or none.  A stream that is held, and a feed that is closed,
    keep it from taking one up. -/
theorem upcoming_of_ask (call : Call Switch) (f : Feed Switch Offers Script) :
    (f.link.opened? (call.ask f).next.link).toList ++ (call.ask f).next.upcoming <+:
      f.upcoming := by
  cases hlink : f.link with
  | connected scanner =>
    have hopen : f.link ≠ .closed := by simp [hlink]
    rw [upcoming_of_ne_closed hopen, ← (ask_of_connected call hlink).1]
    exact upcoming_prefix (call.ask f).next
  | idle =>
    have hfree : f.link.isConnected = false := by rw [hlink]; rfl
    -- a call that connects, or one that leaves the feed alone
    rcases (ask_of_not_connected call hfree).2 with ⟨-, hnext⟩ | ⟨hkept, hfactory⟩
    · have hopen : f.link ≠ .closed := by simp [hlink]
      rw [hnext, upcoming_of_ne_closed hopen]
      exact upcoming_of_connect hlink
    · rw [upcoming, upcoming, hkept, hfactory, hlink]
      exact List.prefix_rfl
  | closed =>
    have hfree : f.link.isConnected = false := by rw [hlink]; rfl
    rcases (ask_of_not_connected call hfree).2 with ⟨hidle, -⟩ | ⟨hkept, -⟩
    · simp [hlink] at hidle
    · rw [upcoming, upcoming, hkept, hlink]
      exact List.prefix_rfl

/-- The streams that are taken up are the first ones offered.  By induction on the calls. -/
theorem visits_streams (calls : List (Call Switch)) (f : Feed Switch Offers Script) :
    (visits calls f).map Visit.stream <+: f.upcoming := by
  induction calls generalizing f with
  | nil => exact List.nil_prefix
  | cons call later ih =>
    refine List.IsPrefix.trans ?_ (upcoming_of_ask call f)
    rw [visits]
    cases f.link.opened? (call.ask f).next.link with
    | none => exact ih _
    | some stream => exact List.cons_prefix_cons.mpr ⟨rfl, ih _⟩

/-- A fresh scanner gives the records of the script.  This is `drain_eq_cut` for a scanner over a
    script, as a feed makes it. -/
theorem drain_scannerOver {w : Switch} (hw : w.thrown = 0) (f : Feed Switch Offers Script)
    (stream : Script) : (f.scannerOver stream).drain w = stream.scan f.settings :=
  Scanner.drain_of_faces (Scanner.faces_start (Script.delivers hw stream))

/-- **The messages of a stream do not depend on anything but the stream.**  Whatever is asked of
    a feed on settings that fit together, as long as nobody throws the switch: the streams that
    it takes up are the first ones offered, every message is read of one of them, and of each
    stream it reads the first messages that the records of this stream make, in order.  They are
    all of them if a read gave the stream back, and if this read fails, then with what the scan
    of the stream ended with. -/
theorem visits_messages {offers : Offers} {unblock : Switch → Switch} {settings : Settings}
    {f : Feed Switch Offers Script} (hmake : make offers unblock settings = .ok f)
    {calls : List (Call Switch)} (hquiet : ∀ call ∈ calls, call.surroundings.thrown = 0) :
    (visits calls f).map Visit.stream <+: offers.streams ∧
    messagesRead calls f = ((visits calls f).flatMap fun visit => visit.messages) ∧
    ∀ visit ∈ visits calls f,
      visit.toStay.Follows settings.multipart (visit.stream.scan settings) := by
  have hidle := link_of_make hmake
  obtain ⟨hfactory, hsettings⟩ := of_make hmake
  refine ⟨?_, ?_, fun visit hvisit => ?_⟩
  · have hstreams := visits_streams calls f
    rwa [upcoming, hidle, hfactory] at hstreams
  · rw [messagesRead_eq, hidle]
    rfl
  · have hsame : ∀ call ∈ calls, call.surroundings = ⟨0⟩ := fun call hmem =>
      congrArg Switch.mk (hquiet call hmem)
    -- the scan of a fresh scanner is the scan of the script
    have hfollows := visits_follow hsame f visit hvisit
    rwa [drain_scannerOver rfl, hsettings] at hfollows

/-- A stream that fails while a message is open, a refusal, and a stream whose end closes its last
    message. -/
def twoStreams : Offers :=
  ⟨[.stream ⟨[.data [97, 10, 10, 98], .fails (.bare .timedOut)]⟩, .refused (.bare .notFound),
    .stream ⟨[.interrupts, .data [99], .ends]⟩]⟩

/-- A feed over them in multipart mode. -/
def overTwoStreams : Feed Switch Offers Script :=
  { factory := twoStreams
    unblock := Switch.throw
    settings := { multipart := true }
    arena := Arena.ofCapacity 65536 }

/-- Requests that read both of them. -/
def readTwoStreams : List (Call Switch) :=
  [.connect, .read, .read, .connect, .connect, .read].map (Call.mk ⟨0⟩)

/-- The first stream is left by the read that fails, the refusal by the next connect, and the second
    stream by the read of its last message. -/
theorem visits_messages_two_streams :
    make twoStreams Switch.throw { multipart := true } = .ok overTwoStreams ∧
    (∀ call ∈ readTwoStreams, call.surroundings.thrown = 0) ∧
    ((visits readTwoStreams overTwoStreams).map fun visit =>
      visit.messages.map Message.payloads) = [[[[97]]], [[[99]]]] ∧
    ∀ visit ∈ visits readTwoStreams overTwoStreams,
      visit.toStay.Follows true (visit.stream.scan { multipart := true }) :=
  have hmake : make twoStreams Switch.throw { multipart := true } = .ok overTwoStreams := rfl
  have hquiet : ∀ call ∈ readTwoStreams, call.surroundings.thrown = 0 := by simp [readTwoStreams]
  ⟨hmake, hquiet, by decide +kernel, (visits_messages hmake hquiet).2.2⟩

end Feed

end RecordFeed
