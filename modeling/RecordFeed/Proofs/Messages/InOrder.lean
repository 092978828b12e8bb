/-
  One stream after another, without a gap.

  As long as no caller gives a stream back, a stream is left only at its end.  What is read is then
  one list from beginning to end: the messages of the first stream that can be had, those of the
  next one, and so on.

  `ahead` is what is still to be read of this list.  A call reads its first message or nothing
  (`ahead_of_ask`), so that a run reads the first ones in order (`messagesRead_prefix`).

  A caller that gives streams back reads some of these messages and leaves others out, but it reads
  none of them twice (`messagesRead_sublist`).
-/
import Mathlib.Data.List.Nodup
import RecordFeed.Proofs.Messages.Visits

namespace RecordFeed

/-- The messages of a scripted stream. -/
def Script.messages (settings : Settings) (s : Script) : List (List Bytes) :=
  (s.scan settings).messages settings.multipart

namespace Feed

variable {w : Switch} {f : Feed Switch Offers Script} {scanner : Scanner Script Delimiter}

/-- The messages still to be read of the stream that is held. -/
def aheadHere (w : Switch) (f : Feed Switch Offers Script) : List (List Bytes) :=
  match f.link with
  | .connected scanner => (scanner.drain w).messages f.settings.multipart
  | _ => []

/-- The messages still to be read: those of the stream that is held, then those of the streams to
    come. -/
def ahead (w : Switch) (f : Feed Switch Offers Script) : List (List Bytes) :=
  f.aheadHere w ++ f.upcoming.flatMap (Script.messages f.settings)

/-- Of a stream that is held, the messages of what its scanner still gives. -/
theorem aheadHere_of_connected (h : f.link = .connected scanner) :
    f.aheadHere w = (scanner.drain w).messages f.settings.multipart := by
  rw [aheadHere, h]

/-- Without a stream, none. -/
theorem aheadHere_of_not_connected (h : f.link.isConnected = false) : f.aheadHere w = [] := by
  unfold aheadHere
  split
  · rename_i hlink
    simp [hlink, Link.isConnected] at h
  · rfl

/-- A new feed has the messages of all streams ahead. -/
theorem ahead_of_make {offers : Offers} {unblock : Switch → Switch} {settings : Settings}
    (h : make offers unblock settings = .ok f) :
    f.ahead w = offers.streams.flatMap (Script.messages settings) := by
  have hidle := link_of_make h
  obtain ⟨hfactory, hsettings⟩ := of_make h
  rw [ahead, aheadHere_of_not_connected (by rw [hidle]; rfl), hsettings,
    upcoming_of_ne_closed (by simp [hidle]), hfactory]
  rfl

/-- **A call reads the next message or nothing**, and what is ahead follows it.  The call is assumed
    not to give a stream back, so that a stream is left only when it has no more messages. -/
theorem ahead_of_ask {call : Call Switch} (hw : w.thrown = 0) (hsame : call.surroundings = w)
    (hkept : ∀ milliseconds, call.request ≠ .waitForClose milliseconds)
    (f : Feed Switch Offers Script) :
    (call.ask f).answer.message?.toList.map Message.payloads ++ (call.ask f).next.ahead w <+:
      f.ahead w := by
  cases hlink : f.link with
  | connected scanner =>
    obtain ⟨hfactory, hcases⟩ := ask_of_connected call hlink
    -- as long as the feed is not closed, the streams to come are the same
    have hnext (hopen : (call.ask f).next.link ≠ .closed) :
        (call.ask f).next.upcoming = f.upcoming := by
      rw [upcoming_of_ne_closed hopen, hfactory, upcoming_of_ne_closed (by simp [hlink])]
    rw [ahead, ahead, ask_settings, aheadHere_of_connected hlink]
    rcases hcases with ⟨hkeep, hread⟩ | ⟨-, -, milliseconds, hwait⟩ | ⟨hreply, hanswer⟩
    · -- the scanner is left alone
      rw [Answer.message?_of_read? hread, aheadHere_of_connected hkeep, ask_settings,
        hnext (by simp [hkeep])]
      exact List.prefix_rfl
    · exact absurd hwait (hkept milliseconds)
    · rw [hsame] at hreply hanswer
      -- a read: the first message is taken from those ahead, or there was none
      cases read_spec (w := w) hlink with
      | first answer link ahead outcome =>
        have hkeep := (congrArg Feed.link hreply).trans link
        rw [hanswer, answer, aheadHere_of_connected hkeep, ask_settings, hnext (by simp [hkeep]),
          ahead]
        exact List.prefix_rfl
      | last answer link ahead outcome =>
        have hidle := (congrArg Feed.link hreply).trans link
        rw [hanswer, answer, aheadHere_of_not_connected (by rw [hidle]; rfl),
          hnext (by simp [hidle]), ahead]
        exact List.prefix_rfl
      | none answer link ahead =>
        have hidle := (congrArg Feed.link hreply).trans link
        rw [hanswer, answer, aheadHere_of_not_connected (by rw [hidle]; rfl),
          hnext (by simp [hidle]), ahead]
        exact List.prefix_rfl
  | idle | closed =>
    -- no message is read, but the next stream may be taken up
    have hfree : f.link.isConnected = false := by rw [hlink]; rfl
    have hstreams := (upcoming_of_ask call f).flatMap (Script.messages f.settings)
    rw [(ask_of_not_connected call hfree).1, ahead, ahead, ask_settings,
      aheadHere_of_not_connected hfree]
    refine List.IsPrefix.trans ?_ hstreams
    cases hopened : f.link.opened? (call.ask f).next.link with
    | some stream =>
      -- the messages of the next stream are now those of the stream that is held
      rw [aheadHere_of_connected (link_of_opened hopened).2, drain_scannerOver hw, ask_settings]
      exact List.prefix_rfl
    | none =>
      have hfree' : (call.ask f).next.link.isConnected = false := by
        rw [Link.opened?, if_neg (by simp [hfree])] at hopened
        cases hnext : (call.ask f).next.link with
        | connected scanner => simp [hnext, Link.handle?] at hopened
        | idle | closed => rfl
      rw [aheadHere_of_not_connected hfree']
      exact List.prefix_rfl

/-- **What is read are the first messages of those ahead**, in order and without a gap.  By
    induction on the calls. -/
theorem messagesRead_prefix {calls : List (Call Switch)} (hw : w.thrown = 0)
    (hquiet : ∀ call ∈ calls, call.surroundings = w)
    (hkept : ∀ call ∈ calls, ∀ milliseconds, call.request ≠ .waitForClose milliseconds)
    (f : Feed Switch Offers Script) :
    (messagesRead calls f).map Message.payloads <+: f.ahead w := by
  induction calls generalizing f with
  | nil => exact List.nil_prefix
  | cons call later ih =>
    obtain ⟨hhere, hlater⟩ := List.forall_mem_cons.mp hquiet
    obtain ⟨hkeeps, hkept⟩ := List.forall_mem_cons.mp hkept
    have hstep := ahead_of_ask hw hhere hkeeps f
    have hrest := ih hlater hkept (call.ask f).next
    -- what this call read stands before what the others read of the rest
    rw [messagesRead_cons, List.map_append]
    exact ((List.prefix_append_right_inj _).mpr hrest).trans hstep

/-! ## No message twice

  Whoever gives streams back loses the messages that were not read.  What is read is then no
  prefix of all messages any more, but still in their order. -/

/-- The messages of any run are messages of the streams on offer, in their order.  Here streams may
    be given back; each visit reads a prefix of the messages of its stream, and the visits follow
    the order of the offers. -/
theorem messagesRead_sublist {calls : List (Call Switch)}
    (hquiet : ∀ call ∈ calls, call.surroundings.thrown = 0) (h : f.link = .idle) :
    ((messagesRead calls f).map Message.payloads).Sublist
      (f.factory.streams.flatMap (Script.messages f.settings)) := by
  have hsame : ∀ call ∈ calls, call.surroundings = ⟨0⟩ := fun call hmem =>
    congrArg Switch.mk (hquiet call hmem)
  -- one visit: a prefix is a sublist
  have hvisit : ∀ visit ∈ visits calls f,
      (visit.messages.map Message.payloads).Sublist (Script.messages f.settings visit.stream) := by
    intro visit hvisit
    have hfollows := visits_follow hsame f visit hvisit
    rw [drain_scannerOver rfl] at hfollows
    exact hfollows.in_order.sublist
  have hstreams := visits_streams calls f
  rw [upcoming_of_ne_closed (by simp [h])] at hstreams
  have hread : messagesRead calls f = (visits calls f).flatMap fun visit => visit.messages := by
    rw [messagesRead_eq, h]
    rfl
  rw [hread, List.map_flatMap]
  -- first within the visits, then over the streams that were not visited
  refine (List.Sublist.flatMap_right _ hvisit).trans ?_
  rw [← List.flatMap_map]
  exact hstreams.sublist.flatMap _

/-- Records that are all different make messages that are all different.  Together with
    `messagesRead_sublist` this is how no message is read twice. -/
theorem messages_nodup {settings : Settings} {streams : List Script}
    (h : (streams.flatMap fun stream => (stream.scan settings).carried).Nodup) :
    (streams.flatMap (Script.messages settings)).Nodup := by
  -- the parts of all messages are among the records of all streams
  have hflat : (streams.flatMap (Script.messages settings)).flatten.Nodup := by
    refine h.sublist ?_
    rw [List.flatMap_def, List.flatten_flatten, List.map_map, ← List.flatMap_def]
    exact List.Sublist.flatMap_right _ fun stream _ => Scan.messages_flatten_sublist _ _
  have hfull : ∀ message ∈ streams.flatMap (Script.messages settings), message ≠ [] := by
    intro message hmem
    obtain ⟨stream, -, hmessage⟩ := List.mem_flatMap.mp hmem
    exact Scan.ne_nil_of_mem_messages hmessage
  -- messages without a record in common are different, for none is empty
  refine (List.nodup_flatten.mp hflat).2.imp_of_mem fun {a b} ha _ hdisjoint hsame => ?_
  obtain ⟨record, hrecord⟩ := List.exists_mem_of_ne_nil a (hfull a ha)
  exact hdisjoint hrecord (hsame ▸ hrecord)

end Feed

end RecordFeed
