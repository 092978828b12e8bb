/-
  A larger limit only adds messages.

  The limit bounds what is buffered in search of a delimiter, so that it also decides in which
  pieces a stream is read.  None of that shows: of the same stream, a feed with a larger limit reads
  the same messages, and perhaps more of them.

  1. **Cuts** (`firstCut_of_le`).  Whatever is cut under a limit is cut under a larger one as well.
     The only answer that can change is that a record is too large.

  2. **Scans** (`Extends`).  So one scan is the other one, or its records are the first records of
     the other one and it ends with a record that is too large (`cut_of_le`).

  3. **Messages** (`messages_first`).  A scan that fails has lost its last run.  The runs before it
     are closed by blank records and stay as they are, whatever comes behind them.
-/
import RecordFeed.Proofs.Messages.Draining

namespace RecordFeed

/-! ## Cuts

  The limit enters a cut in one comparison.  Where it decides otherwise under a smaller limit,
  the answer is that the record is too large. -/

variable {delimiter bytes : Bytes} {limit larger : Nat} {ending : StreamEnd}

/-- Bytes that are not too large for a limit are not too large for a larger one.  The limit is
    compared with the length and with nothing else. -/
theorem lastCut_of_le (h : limit ≤ larger) :
    lastCut limit ending bytes = .stop (.error (.tokenTooLarge limit)) ∨
      lastCut larger ending bytes = lastCut limit ending bytes := by
  rcases Nat.lt_or_ge bytes.length limit with hbelow | hfull
  · have hlimit : ¬ limit ≤ bytes.length := Nat.not_le.mpr hbelow
    have hlarger : ¬ larger ≤ bytes.length := by omega
    exact Or.inr ((if_neg hlarger).trans (if_neg hlimit).symm)
  · exact Or.inl (if_pos hfull)

/-- **A larger limit leaves every cut as it is**, except for a record that is too large. -/
theorem firstCut_of_le (h : limit ≤ larger) :
    firstCut delimiter limit ending bytes = .stop (.error (.tokenTooLarge limit)) ∨
      firstCut delimiter larger ending bytes = firstCut delimiter limit ending bytes := by
  cases hfirst : Bytes.firstAt? delimiter bytes with
  | none =>
    rw [firstCut_of_none hfirst, firstCut_of_none hfirst]
    exact lastCut_of_le h
  | some i =>
    have hend := (Bytes.firstAt?_eq_some_iff.mp hfirst).1.add_length_le
    simp only [firstCut, hfirst]
    rcases Nat.lt_or_ge limit (i + delimiter.length) with hbeyond | hwithin
    · -- the delimiter is beyond the limit, and so is what is before it
      left
      rw [if_neg (by omega)]
      exact if_pos (by omega)
    · right
      rw [if_pos hwithin, if_pos (by omega)]

/-! ## Scans

  `Extends` is what is left of the relation between the cuts once all of them are made. -/

/-- A scan comes to the same as another one, or it stops earlier because a record is too large
    for the limit. -/
inductive Scan.Extends (limit : Nat) (small large : Scan) : Prop where
  | same (eq : large = small)
  | longer (outcome : small.outcome = .error (.tokenTooLarge limit))
      (records : small.records <+: large.records)

/-- A record that both begin with. -/
theorem Scan.Extends.cons {small large : Scan} (record : Bytes) (h : small.Extends limit large) :
    (small.cons record).Extends limit (large.cons record) := by
  cases h with
  | same eq => exact .same (congrArg (Scan.cons record) eq)
  | longer outcome records => exact .longer outcome (List.cons_prefix_cons.mpr ⟨rfl, records⟩)

/-- **What is cut under a limit comes first under a larger one.** By induction on the cuts under the
    smaller limit: as long as it does not stop for the limit, the larger one cuts the same. -/
theorem cut_of_le (h : limit ≤ larger) :
    (cut delimiter limit ending bytes).Extends limit (cut delimiter larger ending bytes) := by
  fun_induction cut delimiter limit ending bytes with
  | case1 bytes record rest hcut ih =>
    rcases (firstCut_of_le h : _ ∨ firstCut delimiter larger ending bytes = _) with hlarge | hsame
    · simp [hcut] at hlarge
    · rw [cut_of_record (hsame.trans hcut)]
      exact ih.cons record
  | case2 bytes outcome hcut =>
    rcases (firstCut_of_le h : _ ∨ firstCut delimiter larger ending bytes = _) with hlarge | hsame
    · obtain rfl := Cut.stop.inj (hcut.symm.trans hlarge)
      exact .longer rfl List.nil_prefix
    · exact .same (cut_of_stop (hsame.trans hcut))

/-! ## Messages

  A scan that fails loses the run that no blank record has closed.  With a larger limit this
  run may be closed after all, and then it is a message more. -/

/-- The runs before the last one do not depend on what comes behind them.  By induction on the
    shorter list. -/
theorem dropLast_splitOnP_prefix {α : Type} (p : α → Bool) {part all : List α} (h : part <+: all) :
    (part.splitOnP p).dropLast <+: (all.splitOnP p).dropLast := by
  obtain ⟨behind, rfl⟩ := h
  induction part with
  | nil => exact List.nil_prefix
  | cons a rest ih =>
    obtain ⟨run, runs, hpart⟩ := List.exists_cons_of_ne_nil (List.splitOnP_ne_nil p rest)
    obtain ⟨run', runs', hall⟩ := List.exists_cons_of_ne_nil (List.splitOnP_ne_nil p (rest ++ behind))
    rw [List.cons_append, List.splitOnP_cons_eq_if_modifyHead, List.splitOnP_cons_eq_if_modifyHead]
    rw [hpart, hall] at ih ⊢
    by_cases hp : p a
    · rw [if_pos hp, if_pos hp]
      exact List.cons_prefix_cons.mpr ⟨rfl, ih⟩
    · -- the element goes to the front of the first run of both
      rw [if_neg hp, if_neg hp]
      cases runs with
      -- the first run is the last one, and is dropped
      | nil => exact List.nil_prefix
      | cons next later =>
        cases runs' with
        | nil => simp at ih
        | cons next' later' =>
          obtain ⟨rfl, hlater⟩ := List.cons_prefix_cons.mp ih
          exact List.cons_prefix_cons.mpr ⟨rfl, hlater⟩

namespace Scan

variable {small large : Scan}

/-- A scan that failed has only runs that were closed, and the longer scan has closed them too. -/
theorem runs_first {error : FeedError} (hfailed : small.outcome = .error error)
    (hrecords : small.records <+: large.records) : small.runs <+: large.runs := by
  have hclosed := dropLast_splitOnP_prefix List.isEmpty hrecords
  unfold runs
  rw [hfailed]
  -- the longer scan may have one run more, which its end has closed
  cases large.outcome with
  | ok => exact hclosed.trans <| List.dropLast_prefix _
  | error error => exact hclosed

/-- The messages of a scan that fails are the first ones of a scan that goes on.  Outside multipart
    mode records are filtered one by one, which a prefix does not mind. -/
theorem messages_first {error : FeedError} (multipart : Bool)
    (hfailed : small.outcome = .error error) (hrecords : small.records <+: large.records) :
    small.messages multipart <+: large.messages multipart := by
  cases multipart with
  | true =>
    rw [messages, messages, if_pos rfl, if_pos rfl]
    exact (runs_first hfailed hrecords).filter _
  | false =>
    rw [messages, messages, if_neg Bool.false_ne_true, if_neg Bool.false_ne_true]
    exact (hrecords.filter _).map _

end Scan

/-! ## Reading

  What two feeds read of one stream are the messages of two scans, which differ in their limits
  only. -/

namespace Feed

variable {w : Switch} {f g : Feed Switch Offers Script} {stream : Script} {more more' : List Offer}

/-- **The limit only truncates.**  Two feeds come to the same stream, and their settings agree on
    the delimiter and on the mode.  Then the one with the smaller limit reads the first messages
    of those that the other one reads.  Unless it fails because a record is too large, it reads
    all of them and fails as the other one does. -/
theorem limit_truncates (hw : w.thrown = 0) (hf : f.link = .idle) (hg : g.link = .idle)
    (hnext : f.factory.upcoming = .stream stream :: more)
    (hnext' : g.factory.upcoming = .stream stream :: more')
    (hdelimiter : f.settings.delimiter = g.settings.delimiter)
    (hmode : f.settings.multipart = g.settings.multipart)
    (hlimit : f.settings.maxTokenSize ≤ g.settings.maxTokenSize) :
    let small := (f.connect w).next.readOut w
    let large := (g.connect w).next.readOut w
    small.messages.map Message.payloads <+: large.messages.map Message.payloads ∧
    (small.failure ≠ .tokenTooLarge f.settings.maxTokenSize →
      small.messages.map Message.payloads = large.messages.map Message.payloads ∧
        small.failure = large.failure) := by
  obtain ⟨hmessages, hfailure, -⟩ := readOut_of_offered hw hf hnext
  obtain ⟨hmessages', hfailure', -⟩ := readOut_of_offered hw hg hnext'
  have hextends : (stream.scan f.settings).Extends f.settings.maxTokenSize
      (stream.scan g.settings) := by
    rw [Script.scan, Script.scan, Settings.delimiterBytes, hdelimiter]
    exact cut_of_le hlimit
  intro small large
  rw [hmessages, hmessages', hfailure, hfailure', ← hmode]
  cases hextends with
  | same eq =>
    rw [eq]
    exact ⟨List.prefix_rfl, fun _ => ⟨rfl, rfl⟩⟩
  | longer outcome records =>
    refine ⟨Scan.messages_first _ outcome records, fun hadmitted => ?_⟩
    rw [Scan.failure, outcome] at hadmitted
    exact absurd rfl hadmitted

/-- A message of one record, and one of two that is never closed: the second of its records has four
    bytes.  Then the stream fails. -/
def fourBytes : Script :=
  ⟨[.data [97, 10, 10, 98], .interrupts, .data [10, 99, 99], .data [99, 99, 10, 10, 100],
    .fails (.bare .timedOut)]⟩

/-- A feed over it in multipart mode. -/
def overFourBytes (maxTokenSize : Nat) : Feed Switch Offers Script :=
  { factory := ⟨[.stream fourBytes]⟩
    unblock := Switch.throw
    settings := { maxTokenSize, multipart := true }
    arena := Arena.ofCapacity 65536 }

/-- What is read of it. -/
def readFourBytes (maxTokenSize : Nat) : Readout (Feed Switch Offers Script) :=
  ((overFourBytes maxTokenSize).connect ⟨0⟩).next.readOut ⟨0⟩

/-- With four bytes of room the second record is too large, and with five the stream is read as with
    nine. -/
theorem limit_truncates_four_bytes :
    (∀ maxTokenSize, (overFourBytes maxTokenSize).link = .idle ∧
      (overFourBytes maxTokenSize).factory.upcoming = [.stream fourBytes]) ∧
    (readFourBytes 4).messages.map Message.payloads = [[[97]]] ∧
    (readFourBytes 4).messages.map Message.payloads <+:
      (readFourBytes 9).messages.map Message.payloads ∧
    (readFourBytes 5).failure = .io (.bare .timedOut) ∧
    (readFourBytes 5).messages.map Message.payloads =
      (readFourBytes 9).messages.map Message.payloads ∧
    (readFourBytes 5).failure = (readFourBytes 9).failure := by
  have hfailure : (readFourBytes 5).failure = .io (.bare .timedOut) := by
    refine (readOut_of_offered (f := overFourBytes 5) rfl rfl rfl).failure.trans ?_
    show (cut [10] 5 (Script.ending fourBytes.cues) (Script.content fourBytes.cues)).failure = _
    cbv
  have hcut := limit_truncates (w := ⟨0⟩) (f := overFourBytes 4) (g := overFourBytes 9)
    rfl rfl rfl rfl rfl rfl rfl (by decide)
  have hwhole := limit_truncates (w := ⟨0⟩) (f := overFourBytes 5) (g := overFourBytes 9)
    rfl rfl rfl rfl rfl rfl rfl (by decide)
  obtain ⟨hmessages, hsame⟩ := hwhole.2 (by rw [← readFourBytes, hfailure]; simp)
  exact ⟨fun _ => ⟨rfl, rfl⟩, by decide +kernel, hcut.1, hfailure, hmessages, hsame⟩

end Feed

end RecordFeed
