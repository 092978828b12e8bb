/-
  One stream instead of several.

  A feed that is drained reads one stream after another.  It might as well read a single one, in
  which the contents of the others are joined: by one delimiter, or by two of them in multipart
  mode, where a blank record has to close what the end of a stream closed.

  1. **Pieces** (`cut_splitOn`).  For a delimiter of one byte the records are the pieces between its
     occurrences, as long as none of them is too large.  Only a blank piece at the very end is no
     record.

  2. **Messages** (`messagesOf`).  A blank piece at the end makes no difference to the messages.
     With it counted in, the messages of joined contents are those of the contents, one after
     another (`messagesOf_join`, `messagesOf_intercalate`).

  3. **Feeds** (`drain_joined`).  Draining reads the messages of all streams, so that both feeds
     read the same.
-/
import RecordFeed.Proofs.Messages.Draining
import RecordFeed.Proofs.Records.Lossless

namespace RecordFeed

/-! ## Pieces

  For a delimiter of several bytes this fails: joining could make an occurrence that lies
  across the boundary.  So here the delimiter is one byte. -/

variable {d : UInt8} {limit : Nat} {multipart : Bool}

namespace Bytes

theorem firstAt?_singleton_eq_none {hay : Bytes} (h : d ∉ hay) : firstAt? [d] hay = none :=
  firstAt?_eq_none_iff.mpr fun _ hoccurs => h (List.mem_of_getElem? (occurs_singleton_iff.mp hoccurs))

end Bytes

/-- A delimiter of one byte ends every record that it does not occur in. -/
theorem endedBy_singleton {record : Bytes} (h : d ∉ record) : EndedBy [d] record := by
  refine Bytes.firstAt?_eq_some_iff.mpr ⟨?_, fun j hj hearlier => ?_⟩
  · exact Bytes.occurs_singleton_iff.mpr List.getElem?_concat_length
  · have hbyte := Bytes.occurs_singleton_iff.mp hearlier
    rw [List.getElem?_append_left hj] at hbyte
    exact h (List.mem_of_getElem? hbyte)

/-- Splitting at the first delimiter. -/
theorem splitOn_of_not_mem {record : Bytes} (h : d ∉ record) (rest : Bytes) :
    (record ++ d :: rest).splitOn d = record :: rest.splitOn d := by
  rw [List.splitOn_append_cons_self, List.splitOn_eq_singleton h]
  rfl

/-- **The records are the pieces**, if none of these is too large and but for a blank one at the
    end.  By induction on the bytes, from one delimiter to the next. -/
theorem cut_splitOn {bytes : Bytes} (hfits : ∀ piece ∈ bytes.splitOn d, piece.length < limit) :
    ∃ records, cut [d] limit .over bytes = { records, outcome := .ok () } ∧
      (bytes.splitOn d = records ∨ bytes.splitOn d = records ++ [[]]) := by
  induction hn : bytes.length using Nat.strongRecOn generalizing bytes with
  | ind n ih =>
    by_cases hmem : d ∈ bytes
    · -- the bytes up to the first delimiter are a record, and the induction goes behind it
      obtain ⟨record, rest, rfl, hrecord⟩ := List.eq_append_cons_of_mem hmem
      rw [splitOn_of_not_mem hrecord] at hfits ⊢
      obtain ⟨hhere, hlater⟩ := List.forall_mem_cons.mp hfits
      have hshorter : rest.length < n := by
        rw [← hn, List.length_append, List.length_cons]
        omega
      obtain ⟨records, hcut, hpieces⟩ := ih rest.length hshorter hlater rfl
      have hfirst : firstCut [d] limit .over (record ++ d :: rest) = .record record rest := by
        rw [List.append_cons]
        exact firstCut_of_ended (endedBy_singleton hrecord) hhere rest
      refine ⟨record :: records, ?_, ?_⟩
      · rw [cut_of_record hfirst, hcut]
        rfl
      · rcases hpieces with hall | hblank
        · exact Or.inl (congrArg _ hall)
        · exact Or.inr (congrArg _ hblank)
    · rw [List.splitOn_eq_singleton hmem] at hfits ⊢
      have hbelow := hfits bytes (List.mem_singleton_self bytes)
      by_cases hnil : bytes = []
      · subst hnil
        -- nothing is left: no record, but a blank piece
        exact ⟨[], cut_nil hbelow, Or.inr rfl⟩
      · -- what is left without a delimiter is the last record
        have hfirst := firstCut_of_rest (Bytes.firstAt?_singleton_eq_none hmem) hnil hbelow
        refine ⟨[bytes], ?_, Or.inl rfl⟩
        rw [cut_of_record hfirst, cut_nil (by omega)]
        rfl

/-! ## Messages

  The end of a stream closes a message, and in a joined stream there is no end to do so.  A
  blank record does it instead. -/

namespace Scan

/-- The messages that some records make if the stream is over behind them.  Without an error the
    outcome plays no part, so it is left out. -/
def messagesOf (multipart : Bool) (records : List Bytes) : List (List Bytes) :=
  messages multipart { records, outcome := .ok () }

/-- What stands between the records of two streams when these are read one after another.  The end
    of a stream closes a message, and in multipart mode a blank record does the same. -/
def boundary (multipart : Bool) : List Bytes := if multipart then [[]] else []

/-- **The messages of two streams**: what the end of the first one closes, a blank record closes as
    well. -/
theorem messagesOf_append (before behind : List Bytes) :
    messagesOf multipart (before ++ boundary multipart ++ behind) =
      messagesOf multipart before ++ messagesOf multipart behind := by
  cases multipart with
  | true =>
    -- the blank record between the two is where the runs are parted
    have hparted : (before ++ [[]] ++ behind).splitOnP List.isEmpty =
        before.splitOnP List.isEmpty ++ behind.splitOnP List.isEmpty := by
      rw [← List.append_cons]
      exact List.splitOnP_append_cons before behind rfl
    show ((before ++ [[]] ++ behind).splitOnP List.isEmpty).filter _ = _
    rw [hparted, List.filter_append]
    rfl
  | false =>
    show ((before ++ [] ++ behind).filter _).map _ = _
    rw [List.append_nil, List.filter_append, List.map_append]
    rfl

/-- A blank record at the end makes no message. -/
theorem messagesOf_blank_last (records : List Bytes) :
    messagesOf multipart (records ++ [[]]) = messagesOf multipart records := by
  cases multipart with
  | true =>
    have happend : messagesOf true (records ++ [[]] ++ []) = messagesOf true records ++ [] :=
      messagesOf_append records []
    rwa [List.append_nil, List.append_nil] at happend
  | false =>
    show ((records ++ [[]]).filter _).map _ = _
    rw [List.filter_append, List.map_append]
    exact List.append_nil _

end Scan

/-- The messages of a stream that is over and has no record that is too large.  This is where the
    blank piece at the end is counted in. -/
theorem Script.messages_of_over {settings : Settings} {s : Script}
    (hdelimiter : settings.delimiterBytes = [d]) (hover : ending s.cues = .over)
    (hfits : ∀ piece ∈ (content s.cues).splitOn d, piece.length < settings.maxTokenSize) :
    s.messages settings = Scan.messagesOf settings.multipart ((content s.cues).splitOn d) := by
  obtain ⟨records, hcut, hpieces⟩ := cut_splitOn hfits
  rw [messages, scan, hdelimiter, hover, hcut]
  rcases hpieces with hall | hblank
  · rw [hall]
    rfl
  · rw [hblank, Scan.messagesOf_blank_last]
    rfl

/-! ## Joined contents

  The same for bytes, and then for as many contents as there are streams. -/

/-- What joins the contents of two streams: a delimiter, and in multipart mode one more for the
    blank record that closes a message. -/
def joint (multipart : Bool) (d : UInt8) : Bytes := if multipart then [d, d] else [d]

/-- The pieces of two contents that are joined.  Between them stands what `boundary` says. -/
theorem splitOn_join (before behind : Bytes) :
    (before ++ joint multipart d ++ behind).splitOn d =
      before.splitOn d ++ Scan.boundary multipart ++ behind.splitOn d := by
  cases multipart with
  | true =>
    have hblank : (d :: behind).splitOn d = [[]] ++ behind.splitOn d :=
      splitOn_of_not_mem List.not_mem_nil behind
    show (before ++ [d, d] ++ behind).splitOn d = _
    rw [List.append_assoc, List.cons_append, List.cons_append, List.nil_append,
      List.splitOn_append_cons_self, hblank, ← List.append_assoc]
    rfl
  | false =>
    show (before ++ [d] ++ behind).splitOn d = _
    rw [← List.append_cons, List.splitOn_append_cons_self]
    show _ = before.splitOn d ++ [] ++ behind.splitOn d
    rw [List.append_nil]

/-- The pieces of joined contents are those of the contents, and blank ones.  So none of them is too
    large if the pieces of the contents are not.  By induction on the contents. -/
theorem mem_splitOn_intercalate {contents : List Bytes} {piece : Bytes}
    (h : piece ∈ ((joint multipart d).intercalate contents).splitOn d) :
    piece = [] ∨ ∃ content ∈ contents, piece ∈ content.splitOn d := by
  induction contents with
  | nil => exact Or.inl (by simpa using h)
  | cons content rest ih =>
    cases rest with
    | nil => exact Or.inr ⟨content, List.mem_singleton_self _, by simpa using h⟩
    | cons next later =>
      rw [List.intercalate_cons_cons, splitOn_join, List.mem_append, List.mem_append] at h
      rcases h with (hhere | hboundary) | hlater
      · exact Or.inr ⟨content, List.mem_cons_self, hhere⟩
      · left
        cases multipart with
        | true => exact List.mem_singleton.mp hboundary
        | false => exact absurd hboundary List.not_mem_nil
      · rcases ih hlater with hblank | ⟨other, hother, hpiece⟩
        · exact Or.inl hblank
        · exact Or.inr ⟨other, List.mem_cons_of_mem _ hother, hpiece⟩

/-- **The messages of joined contents** are those of the contents, one after another.  By
    induction on the contents. -/
theorem messagesOf_intercalate {contents : List Bytes} (hne : contents ≠ []) :
    Scan.messagesOf multipart (((joint multipart d).intercalate contents).splitOn d) =
      contents.flatMap fun content => Scan.messagesOf multipart (content.splitOn d) := by
  induction contents with
  | nil => exact absurd rfl hne
  | cons content rest ih =>
    cases rest with
    | nil => simp
    | cons next later =>
      rw [List.intercalate_cons_cons, splitOn_join, Scan.messagesOf_append,
        ih (List.cons_ne_nil next later)]
      rfl

/-! ## Feeds

  What is left is to put both sides in terms of `messagesOf`. -/

namespace Feed

variable {w : Switch} {f g : Feed Switch Offers Script}

/-- Streams without a refusal between them. -/
theorem streams_map_stream (streams : List Script) :
    (⟨streams.map .stream⟩ : Offers).streams = streams := by
  induction streams with
  | nil => rfl
  | cons stream more ih => exact congrArg (stream :: ·) ih

/-- **Streams can be joined.**  The delimiter of the settings is a single byte, some streams come
    to their end without an error, and none of their records is too large: neither the pieces
    before the delimiters nor the one behind the last of them.  Then draining a feed over them
    reads the same messages as draining one over a single stream, in which their contents are
    joined. -/
theorem drain_joined {settings : Settings} {unblock : Switch → Switch} {streams : List Script}
    {joined : Script} (hw : w.thrown = 0) (hdelimiter : settings.delimiterBytes = [d])
    (hf : make ⟨streams.map .stream⟩ unblock settings = .ok f)
    (hg : make ⟨[.stream joined]⟩ unblock settings = .ok g) (hne : streams ≠ [])
    (hover : ∀ stream ∈ streams, Script.ending stream.cues = .over)
    (hfits : ∀ stream ∈ streams, ∀ piece ∈ (Script.content stream.cues).splitOn d,
      piece.length < settings.maxTokenSize)
    (hjoined : Script.content joined.cues =
      (joint settings.multipart d).intercalate (streams.map fun s => Script.content s.cues))
    (hjoinedOver : Script.ending joined.cues = .over) :
    (f.drain w).map Message.payloads = (g.drain w).map Message.payloads := by
  have hpos : 0 < settings.maxTokenSize := by
    have hvalid := (Settings.validate_eq_ok_iff settings).mp (validate_of_make hf)
    omega
  -- the limit is at least one, so it admits the blank pieces at the boundaries
  have hjoinedFits : ∀ piece ∈ (Script.content joined.cues).splitOn d,
      piece.length < settings.maxTokenSize := by
    intro piece hpiece
    rw [hjoined] at hpiece
    rcases mem_splitOn_intercalate hpiece with rfl | ⟨content, hcontent, hmem⟩
    · exact hpos
    · obtain ⟨stream, hstream, rfl⟩ := List.mem_map.mp hcontent
      exact hfits stream hstream piece hmem
  -- what all streams make is what the joined one makes
  have hall : streams.flatMap (Script.messages settings) = joined.messages settings := by
    rw [Script.messages_of_over hdelimiter hjoinedOver hjoinedFits, hjoined,
      messagesOf_intercalate (by simpa using hne), List.flatMap_map]
    refine List.flatMap_congr fun stream hstream => ?_
    exact Script.messages_of_over hdelimiter (hover stream hstream) (hfits stream hstream)
  rw [drain_of_make hw hf, drain_of_make hw hg, streams_map_stream, hall]
  exact (List.flatMap_singleton _ _).symm

/-- Streams whose ends close a message, nothing, and a record that is complete already. -/
def threeStreams : List Script :=
  [⟨[.data [97, 10], .interrupts, .data [10, 98]]⟩, ⟨[]⟩, ⟨[.data [99], .data [10], .ends]⟩]

/-- A single stream with their contents, in other pieces. -/
def threeJoined : Script := ⟨[.data [97, 10, 10, 98, 10], .data [10, 10, 10, 99, 10]]⟩

/-- Settings in multipart mode, with a limit that just admits the records. -/
def justFitting : Settings := { maxTokenSize := 2, multipart := true }

/-- A feed on these settings. -/
def overStreams (streams : List Script) : Feed Switch Offers Script :=
  { factory := ⟨streams.map .stream⟩
    unblock := Switch.throw
    settings := justFitting
    arena := Arena.ofCapacity 65536 }

/-- The limit of two bytes admits records of one byte.  The second stream is empty, so that in the
    joined one two boundaries meet. -/
theorem drain_joined_three_streams :
    justFitting.delimiterBytes = [10] ∧
    make ⟨threeStreams.map .stream⟩ Switch.throw justFitting = .ok (overStreams threeStreams) ∧
    make ⟨[.stream threeJoined]⟩ Switch.throw justFitting = .ok (overStreams [threeJoined]) ∧
    threeStreams ≠ [] ∧
    (∀ stream ∈ threeStreams, Script.ending stream.cues = .over) ∧
    (∀ stream ∈ threeStreams, ∀ piece ∈ (Script.content stream.cues).splitOn 10,
      piece.length < justFitting.maxTokenSize) ∧
    Script.content threeJoined.cues =
      (joint true 10).intercalate (threeStreams.map fun s => Script.content s.cues) ∧
    ((overStreams threeStreams).drain ⟨0⟩).map Message.payloads = [[[97]], [[98]], [[99]]] ∧
    ((overStreams threeStreams).drain ⟨0⟩).map Message.payloads =
      ((overStreams [threeJoined]).drain ⟨0⟩).map Message.payloads :=
  have hdelimiter : justFitting.delimiterBytes = [10] := rfl
  have hover : ∀ stream ∈ threeStreams, Script.ending stream.cues = .over := by
    simp [threeStreams, Script.ending]
  have hfits : ∀ stream ∈ threeStreams, ∀ piece ∈ (Script.content stream.cues).splitOn 10,
      piece.length < justFitting.maxTokenSize := by decide
  have hjoined : Script.content threeJoined.cues =
      (joint true 10).intercalate (threeStreams.map fun s => Script.content s.cues) := by decide
  ⟨hdelimiter, rfl, rfl, List.cons_ne_nil _ _, hover, hfits, hjoined, by decide +kernel,
    drain_joined (d := 10) rfl hdelimiter rfl rfl (List.cons_ne_nil _ _) hover hfits hjoined rfl⟩

end Feed

end RecordFeed
