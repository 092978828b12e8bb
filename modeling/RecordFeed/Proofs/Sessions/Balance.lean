/-
  What the arena is charged with.

  The records of a message are put into the arena while the message is being gathered, before anyone
  knows whether it will be delivered.  A feed in multipart mode that fails in the middle of a group
  has therefore stored records that belong to no message, and goes on counting them.

  1. **Reference** (`Scan.leftover`, `Feed.discarded`).  A stream that fails leaves the run that no
     blank record has closed; it is what `Scan.runs` takes away.  A call discards it when it is a
     read of the stream that is held and fails for the size of a record or for the handle.

  2. **Gathering** (`gather_cursor`, `gather_discards`).  Taking a record moves the cursor of the
     arena by as much as it adds to the open message, and a failure leaves the open message as that
     run.

  3. **One call** (`bufferedBytes_of_ask`).  Every call but a settling one adds the message that it
     reads and the group that it discards.

  4. **Run** (`buffered_balances`).  So the bytes that a feed counts are those of the messages read
     and of the groups discarded since the last settling.
-/
import Mathlib.Data.List.DropRight
import RecordFeed.Proofs.Messages.Visits
import RecordFeed.Proofs.Records.Conduct
import RecordFeed.Proofs.Sessions.FeedCalls

namespace RecordFeed

/-! ## Records that no message takes

  What a failure breaks off is read off the reference, in the same way as the messages are. -/

namespace Scan

variable {multipart : Bool} {scan : Scan} {opened : List Bytes} {record : Bytes}

/-- The last run of records, which no blank record closes.  Where every record is a message of its
    own, there is none.  Of a stream that fails it is what `runs` takes away
    (`runs_append_leftover`). -/
def leftover (multipart : Bool) (scan : Scan) : List Bytes :=
  if multipart then (scan.records.splitOnP List.isEmpty).getLastD [] else []

/-- A stream that fails loses this run and no other: with it, the runs are all of what the blank
    records part. -/
theorem runs_append_leftover {error : FeedError} (h : scan.outcome = .error error) :
    scan.runs ++ [scan.leftover true] = scan.records.splitOnP List.isEmpty := by
  have hne := List.splitOnP_ne_nil List.isEmpty scan.records
  rw [runs, h, leftover, if_pos rfl, List.getLastD_eq_getLast?, List.getLast?_eq_some_getLast hne]
  exact List.dropLast_append_getLast hne

/-- With no message open, a blank record leaves the last run as it is. -/
theorem leftover_cons_blank (hblank : record.isEmpty) :
    (scan.cons record).leftover multipart = scan.leftover multipart := by
  cases multipart with
  | false => rfl
  | true =>
    -- the blank record puts an empty run in front, and the last one stays
    obtain ⟨run, runs, hparted⟩ :=
      List.exists_cons_of_ne_nil (List.splitOnP_ne_nil List.isEmpty scan.records)
    rw [leftover, leftover, if_pos rfl, if_pos rfl, cons, List.splitOnP_cons_eq_if_modifyHead,
      if_pos hblank, hparted]
    rfl

/-- Records without a blank one among them are one run. -/
theorem leftover_of_opened {outcome : Except FeedError Unit} (h : Opened multipart opened) :
    (after opened ⟨[], outcome⟩).leftover multipart = opened := by
  cases multipart with
  | false => exact (h.single rfl).symm
  | true =>
    rw [leftover, if_pos rfl, after, List.append_nil, List.splitOnP_eq_singleton h.not_blank]
    rfl

end Scan

/-! ## Gathering one message

  The cursor of the arena and the length of the open message move together, as long as nothing
  is reset. -/

section Gathering

variable {ω η : Type} [ByteSource ω η] {w : ω} {multipart : Bool} {scanner : Scanner η Delimiter}
  {a : Assembly}

theorem Assembly.take_blank (multipart : Bool) (a : Assembly) : (a.take multipart []).1 = a := rfl

/-- The cursor moves by what is added to the message.  Said without a difference, since the cursor
    may have stood anywhere before. -/
theorem Assembly.take_cursor (multipart : Bool) (record : Bytes) (a : Assembly) :
    (a.take multipart record).1.arena.cursor + a.message.payloadLength =
      a.arena.cursor + (a.take multipart record).1.message.payloadLength := by
  unfold take
  split
  · rfl
  · simp only [Arena.append_cursor, Message.payloadLength_push, Arena.append_payload]
    omega

/-- **Gathering moves the cursor by what it adds to the message**, however it ends.  By induction on
    the records scanned. -/
theorem gather_cursor (w : ω) (multipart : Bool) (scanner : Scanner η Delimiter) (a : Assembly) :
    (gather w multipart scanner a).next.2.arena.cursor + a.message.payloadLength =
      a.arena.cursor + (gather w multipart scanner a).next.2.message.payloadLength := by
  fun_induction gather w multipart scanner a with
  | case1 | case2 => rfl
  | case3 scanner a reply record hanswer taken htaken => exact Assembly.take_cursor multipart record a
  | case4 scanner a reply record hanswer taken htaken ih =>
    -- this record, and then the others
    have htake : taken.1.arena.cursor + a.message.payloadLength =
        a.arena.cursor + taken.1.message.payloadLength := Assembly.take_cursor multipart record a
    simp only [Reply.after_next]
    omega

/-- Taking a record that does not complete the message leaves the same last run.  This is the twin
    of `messages_of_take`, for what is left at the end instead of what comes first. -/
theorem leftover_of_take {record : Bytes} (scan : Scan) (h : Opened multipart a.message.payloads)
    (htaken : (a.take multipart record).2 = false) :
    ((scan.cons record).after a.message.payloads).leftover multipart =
      (scan.after (a.take multipart record).1.message.payloads).leftover multipart := by
  unfold Assembly.take at htaken ⊢
  by_cases hblank : record.isEmpty
  · rw [if_pos hblank] at htaken ⊢
    -- the record closes nothing, so no message is open
    have hnil : a.message.payloads = [] := by
      cases multipart with
      | true => simpa [Message.isEmpty_eq] using htaken
      | false => exact h.single rfl
    rw [hnil, Scan.after_nil, Scan.after_nil, Scan.leftover_cons_blank hblank]
  · rw [if_neg hblank]
    simp only [Message.payloads_push, Arena.append_payload]
    rw [Scan.cons_after]

/-- **A failure breaks off the run that no blank record has closed.**  By induction on the records
    scanned. -/
theorem gather_discards {error : FeedError} (h : Opened multipart a.message.payloads)
    (hfailed : (gather w multipart scanner a).answer = .failed error) :
    (gather w multipart scanner a).next.2.message.payloads =
      ((scanner.drain w).after a.message.payloads).leftover multipart := by
  fun_induction gather w multipart scanner a with
  | case1 scanner a reply error' hanswer =>
    have hdrain : scanner.drain w = ⟨[], .error error'⟩ := Scanner.drain_of_stop hanswer
    rw [hdrain, Scan.leftover_of_opened h]
  | case2 | case3 => simp at hfailed
  | case4 scanner a reply record hanswer taken htaken ih =>
    have hopen : taken.2 = false := by simpa using htaken
    -- the open message grows by this record, and what is left at the end is the same
    obtain ⟨hopened, -⟩ := messages_of_take (reply.next.drain w) h hopen
    rw [Scanner.drain_of_record hanswer, leftover_of_take _ h hopen]
    exact ih hopened hfailed

end Gathering

/-! ## One call

  A call is charged with what it stored, whether or not a message came of it.  Only reads store
  anything. -/

/-- The call says that everything read has arrived. -/
def Call.settles {ω : Type} (call : Call ω) : Bool := call.request == .acknowledge none

/-- Only an acknowledgement without a failure settles. -/
theorem Call.settles_iff {ω : Type} {call : Call ω} :
    call.settles = true ↔ call.request = .acknowledge none := beq_iff_eq

/-- The bytes of some messages. -/
def payloadOf (messages : List Message) : Nat := (messages.flatMap Message.payloads).flatten.length

@[simp] theorem payloadOf_nil : payloadOf [] = 0 := rfl

@[simp] theorem payloadOf_singleton (message : Message) :
    payloadOf [message] = message.payloadLength := by
  rw [payloadOf, List.flatMap_singleton, Message.payloadLength]

theorem payloadOf_append (first later : List Message) :
    payloadOf (first ++ later) = payloadOf first + payloadOf later := by
  simp [payloadOf]

/-- A message that carries nothing has no bytes. -/
theorem Message.payloadLength_of_isEmpty {message : Message} (h : message.isEmpty) :
    message.payloadLength = 0 := by
  rw [isEmpty_eq, List.isEmpty_iff] at h
  rw [payloadLength, h]
  rfl

namespace Feed

variable {ω φ η : Type} [StreamFactory ω φ η] [ByteSource ω η] {w : ω} {f : Feed ω φ η}
  {call : Call ω}

/-- The records of the group that a call breaks off: it reads the stream that is held, and the read
    fails because a record is too large or because the handle fails.  A read that fails for want of
    a stream breaks nothing off. -/
def discarded (call : Call ω) (f : Feed ω φ η) : List Bytes :=
  match f.link, (call.ask f).answer with
  | .connected scanner, .message (.error (.tokenTooLarge _))
  | .connected scanner, .message (.error (.io _)) =>
    (scanner.drain call.surroundings).leftover f.settings.multipart
  | _, _ => []

/-- The records of all groups that a run breaks off. -/
def discardedIn : List (Call ω) → Feed ω φ η → List Bytes
  | [], _ => []
  | call :: later, f => discarded call f ++ discardedIn later (call.ask f).next

/-- What two runs break off, one after the other.  By induction on the calls of the first one. -/
theorem discardedIn_append (first later : List (Call ω)) (f : Feed ω φ η) :
    discardedIn (first ++ later) f =
      discardedIn first f ++ discardedIn later (run first f).next := by
  induction first generalizing f with
  | nil => rfl
  | cons call first ih =>
    rw [List.cons_append, discardedIn, discardedIn, ih, List.append_assoc]
    rfl

/-- Where every record is a message of its own, no group is broken off.  By induction on the calls,
    none of which changes the mode. -/
theorem discardedIn_of_single (calls : List (Call ω)) (h : f.settings.multipart = false) :
    discardedIn calls f = [] := by
  induction calls generalizing f with
  | nil => rfl
  | cons call later ih =>
    have hhere : discarded call f = [] := by
      unfold discarded
      split <;> simp [Scan.leftover, h]
    rw [discardedIn, hhere, List.nil_append]
    exact ih ((congrArg Settings.multipart (ask_settings call f)).trans h)

omit [StreamFactory ω φ η] [ByteSource ω η] in
@[simp] theorem release_bufferedBytes (f : Feed ω φ η) :
    f.release.next.bufferedBytes = f.bufferedBytes := by
  unfold release
  cases f.link <;> rfl

omit [ByteSource ω η] in
@[simp] theorem connect_bufferedBytes (w : ω) (f : Feed ω φ η) :
    (f.connect w).next.bufferedBytes = f.bufferedBytes := by
  cases h : f.link with
  | connected scanner => rw [connect_of_connected h]
  | closed => rw [connect_of_closed h]
  | idle =>
    obtain ⟨events, hconnect⟩ := connect_of_idle (w := w) h
    rw [hconnect]
    cases StreamFactory.nextStream w f.factory with
    | mk answer factory events => cases answer <;> rfl

/-- **A read stores the message that it answers or the group that it breaks off**, and nothing else.
    By how gathering ends. -/
theorem read_bufferedBytes (w : ω) (f : Feed ω φ η) :
    (f.read w).next.bufferedBytes =
      f.bufferedBytes + payloadOf (Answer.message (f.read w).answer).message?.toList +
        (discarded ⟨w, .read⟩ f).flatten.length := by
  cases hlink : f.link with
  | idle | closed =>
    have hfree : f.link.isConnected = false := by rw [hlink]; rfl
    rw [discarded, hlink, read_not_connected hfree]
    rfl
  | connected scanner =>
    -- a read begins with no message open, so the cursor moves by all of the message
    have hcursor := gather_cursor w f.settings.multipart scanner { arena := f.arena }
    have hdiscards : ∀ error,
        (gather w f.settings.multipart scanner { arena := f.arena }).answer = .failed error →
          (gather w f.settings.multipart scanner { arena := f.arena }).next.2.message.payloads =
            (scanner.drain w).leftover f.settings.multipart :=
      fun error => gather_discards opened_nil
    have herror : ∀ error,
        (gather w f.settings.multipart scanner { arena := f.arena }).answer = .failed error →
          error = .tokenTooLarge scanner.limit ∨ ∃ cause, error = .io cause :=
      fun error => gather_failed
    have hask : (Call.ask ⟨w, .read⟩ f).answer = .message (f.read w).answer := rfl
    rw [discarded, hlink, hask, read_connected hlink]
    generalize gather w f.settings.multipart scanner { arena := f.arena } = gathered
      at hcursor hdiscards herror ⊢
    obtain ⟨answer, ⟨next, assembly⟩, events⟩ := gathered
    have hstored : assembly.arena.cursor = f.bufferedBytes + assembly.message.payloadLength := hcursor
    cases answer with
    | complete =>
      show assembly.arena.cursor = f.bufferedBytes + payloadOf [assembly.message] + 0
      rw [payloadOf_singleton, hstored, Nat.add_zero]
    | drained =>
      by_cases hempty : assembly.message.isEmpty
      · -- the stream is over, and the message carries nothing
        rw [Message.payloadLength_of_isEmpty hempty] at hstored
        simpa [settle, hempty, Answer.message?, bufferedBytes, release] using hstored
      · simpa [settle, hempty, Answer.message?, bufferedBytes, release] using hstored
    | failed error =>
      have hgroup : (scanner.drain w).leftover f.settings.multipart = assembly.message.payloads :=
        (hdiscards error rfl).symm
      -- the handle is given back, and the arena stays as it is
      have hbroken : assembly.arena.cursor =
          f.bufferedBytes + 0 + ((scanner.drain w).leftover f.settings.multipart).flatten.length := by
        rw [hgroup, hstored, Message.payloadLength, Nat.add_zero]
      rcases herror error rfl with rfl | ⟨cause, rfl⟩
      · exact hbroken
      · exact hbroken

/-- **What a call stores.**  Unless it settles, it adds the message that it reads and the group
    that it breaks off. -/
theorem bufferedBytes_of_ask (h : call.settles = false) (f : Feed ω φ η) :
    (call.ask f).next.bufferedBytes =
      f.bufferedBytes + payloadOf (call.ask f).answer.message?.toList +
        (discarded call f).flatten.length := by
  -- a call that reads nothing and stores nothing
  have hquiet (hread : (call.ask f).answer.read? = none)
      (hkept : (call.ask f).next.bufferedBytes = f.bufferedBytes) :
      (call.ask f).next.bufferedBytes =
        f.bufferedBytes + payloadOf (call.ask f).answer.message?.toList +
          (discarded call f).flatten.length := by
    unfold discarded
    cases hanswer : (call.ask f).answer with
    | message outcome => simp [hanswer, Answer.read?] at hread
    | done outcome =>
      rw [hkept]
      cases f.link <;> rfl
  obtain ⟨w, request⟩ := call
  cases request with
  | connect => exact hquiet rfl (connect_bufferedBytes w f)
  | read => exact read_bufferedBytes w f
  | acknowledge failure =>
    cases failure with
    | none => simp [Call.settles] at h
    | some reason => exact hquiet rfl rfl
  | waitForClose milliseconds => exact hquiet rfl (release_bufferedBytes f)

omit [StreamFactory ω φ η] [ByteSource ω η] in
/-- Nothing is stored to begin with. -/
theorem bufferedBytes_of_make {factory : φ} {unblock : ω → ω} {settings : Settings}
    (h : make factory unblock settings = .ok f) : f.bufferedBytes = 0 := by
  unfold make at h
  split at h
  · simp at h
  · obtain rfl := Except.ok.inj h
    rfl

/-! ## Runs

  Only the calls since the last settling count.  The list is parted from its end, and so is the
  induction. -/

/-- The calls since the last one that settles. -/
def sinceSettled (calls : List (Call ω)) : List (Call ω) :=
  calls.rtakeWhile fun call => !call.settles

/-- The calls up to the last one that settles. -/
def untilSettled (calls : List (Call ω)) : List (Call ω) :=
  calls.rdropWhile fun call => !call.settles

omit [StreamFactory ω φ η] [ByteSource ω η] in
/-- One more call at the end: it settles, and none is left, or it is the last of those left. -/
theorem sinceSettled_concat (calls : List (Call ω)) (call : Call ω) :
    sinceSettled (calls ++ [call]) = if call.settles then [] else sinceSettled calls ++ [call] := by
  rw [sinceSettled, List.rtakeWhile_concat]
  cases call.settles <;> rfl

/-- And the calls before them grow only when it settles. -/
theorem untilSettled_concat (calls : List (Call ω)) (call : Call ω) :
    untilSettled (calls ++ [call]) = if call.settles then calls ++ [call] else untilSettled calls := by
  rw [untilSettled, List.rdropWhile_concat]
  cases call.settles <;> rfl

/-- Both parts make the run.  The calls are taken apart at the last settling one, from the right. -/
theorem run_untilSettled_next (calls : List (Call ω)) (f : Feed ω φ η) :
    (run (sinceSettled calls) (run (untilSettled calls) f).next).next = (run calls f).next := by
  rw [← run_append_next, untilSettled, sinceSettled, List.rdropWhile, List.rtakeWhile,
    ← List.reverse_append, List.takeWhile_append_dropWhile, List.reverse_reverse]

/-- **What a run has stored**: the messages read and the groups broken off since everything was last
    settled.  By induction on the calls, from the last one backwards.  A settling call starts the
    account anew, which is why the induction takes the calls from the end. -/
theorem bufferedBytes_of_run (h : f.bufferedBytes = 0) (calls : List (Call ω)) :
    (run calls f).next.bufferedBytes =
      payloadOf (messagesRead (sinceSettled calls) (run (untilSettled calls) f).next) +
        (discardedIn (sinceSettled calls) (run (untilSettled calls) f).next).flatten.length := by
  induction calls using List.reverseRecOn with
  | nil => exact h
  | append_singleton calls call ih =>
    have hlast : (run (calls ++ [call]) f).next = (call.ask (run calls f).next).next :=
      run_append_next calls [call] f
    rw [hlast, sinceSettled_concat, untilSettled_concat]
    cases hsettles : call.settles with
    | true =>
      -- everything is settled: nothing is counted and no call is left
      obtain ⟨w, request⟩ := call
      obtain rfl : request = .acknowledge none := Call.settles_iff.mp hsettles
      rfl
    | false =>
      -- one more call since the last settling, and what it adds
      have hstored := bufferedBytes_of_ask hsettles (run calls f).next
      simp only [Bool.false_eq_true, if_false]
      rw [messagesRead_append, discardedIn_append, run_untilSettled_next, payloadOf_append,
        List.flatten_append, List.length_append, messagesRead_cons, discardedIn]
      rw [hstored, ih]
      simp [discardedIn, messagesRead]
      omega

/-- What the bytes that a feed counts after some calls are, and which calls change them. -/
structure Balanced (calls : List (Call ω)) (f : Feed ω φ η) : Prop where
  stored :
    (run calls f).next.bufferedBytes =
      payloadOf (messagesRead (sinceSettled calls) (run (untilSettled calls) f).next) +
        (discardedIn (sinceSettled calls) (run (untilSettled calls) f).next).flatten.length
  /-- Where every record is a message of its own, nothing but messages is stored. -/
  single : f.settings.multipart = false →
    (run calls f).next.bufferedBytes =
      payloadOf (messagesRead (sinceSettled calls) (run (untilSettled calls) f).next)
  settled : ((run calls f).next.acknowledge none).next.bufferedBytes = 0
  refused : ∀ reason, ((run calls f).next.acknowledge (some reason)).next.bufferedBytes =
    (run calls f).next.bufferedBytes
  connect : ∀ w, ((run calls f).next.connect w).next.bufferedBytes =
    (run calls f).next.bufferedBytes
  waitForClose : ∀ milliseconds,
    ((run calls f).next.waitForClose milliseconds).next.bufferedBytes =
      (run calls f).next.bufferedBytes
  not_connected : ∀ w, ((run calls f).next.read w).answer = .error .notConnected →
    ((run calls f).next.read w).next.bufferedBytes = (run calls f).next.bufferedBytes
  /-- A blank record leaves the arena and the open message as they are. -/
  blank : ∀ a : Assembly, (a.take f.settings.multipart []).1 = a

/-- **The bytes that are counted** are, after any calls to a feed on settings that fit together,
    those of the messages read since everything was last settled, and those of the groups that
    reads have broken off since then because a record was too large or the handle failed.  Each
    call has surroundings of its own, so somebody may have asked them before it to end a read
    (`closeAsync`), which is nothing that the feed keeps. -/
theorem buffered_balances {factory : φ} {unblock : ω → ω} {settings : Settings}
    (h : make factory unblock settings = .ok f) (calls : List (Call ω)) : f.Balanced calls where
  stored := bufferedBytes_of_run (bufferedBytes_of_make h) calls
  single hmode := by
    have hsame : (run (untilSettled calls) f).next.settings = f.settings :=
      run_settings (untilSettled calls) f
    rw [bufferedBytes_of_run (bufferedBytes_of_make h) calls,
      discardedIn_of_single _ (by rw [hsame, hmode])]
    rfl
  settled := rfl
  refused _ := rfl
  connect w := connect_bufferedBytes w _
  waitForClose _ := release_bufferedBytes _
  not_connected w hanswer := by
    have hread := read_bufferedBytes w (run calls f).next
    rw [hanswer] at hread
    -- the read failed for want of a stream, so it broke no group off
    have hnothing : discarded ⟨w, .read⟩ (run calls f).next = [] := by
      have hask : (Call.ask ⟨w, .read⟩ (run calls f).next).answer =
          .message (.error .notConnected) := congrArg Answer.message hanswer
      rw [discarded, hask]
      split
      · rename_i hfailed
        cases Answer.message.inj hfailed
      · rename_i hfailed
        cases Answer.message.inj hfailed
      · rfl
    rw [hread, hnothing]
    rfl
  blank a := Assembly.take_blank f.settings.multipart a

/-- A stream that fails in the middle of a group, when one record of it has been scanned, and then a
    stream of one record. -/
def brokenGroup : Offers :=
  ⟨[.stream ⟨[.data [97, 10, 10, 98, 10, 99], .fails (.bare .timedOut)]⟩,
    .stream ⟨[.data [100, 100], .ends]⟩]⟩

/-- A feed over them in multipart mode. -/
def overBrokenGroup : Feed Switch Offers Script :=
  { overTwoStreams with factory := brokenGroup }

/-- A message that is settled, a group that is broken off, and a message that does not arrive. -/
def settleOnce : List (Call Switch) :=
  [.connect, .read, .acknowledge none, .read, .connect, .read, .acknowledge (some "refused")].map
    (Call.mk ⟨0⟩)

/-- The two bytes of the last message and the one byte of the group that was broken off are counted.
    The message that was settled is not. -/
theorem buffered_balances_broken_group :
    make brokenGroup Switch.throw { multipart := true } = .ok overBrokenGroup ∧
    (messagesRead (sinceSettled settleOnce)
      (run (untilSettled settleOnce) overBrokenGroup).next).map Message.payloads = [[[100, 100]]] ∧
    discardedIn (sinceSettled settleOnce)
      (run (untilSettled settleOnce) overBrokenGroup).next = [[98]] ∧
    (run settleOnce overBrokenGroup).next.bufferedBytes = 3 ∧
    overBrokenGroup.Balanced settleOnce :=
  have hmake : make brokenGroup Switch.throw { multipart := true } = .ok overBrokenGroup := rfl
  ⟨hmake, by decide +kernel, by decide +kernel, by decide +kernel,
    buffered_balances hmake settleOnce⟩

end Feed

end RecordFeed
