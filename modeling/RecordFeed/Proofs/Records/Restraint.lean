/-
  A scanner turns to its handle only when it has to.

  A needless read makes a live stream wait for bytes that nobody asked for, and a read without room
  is mistaken for the end of the stream.  Where a scanner stands in its loop says why neither
  happens:

  1. **One step** (`Asked`, `Grown`, `Led`, `stepped_of_step`).  What turning to the policy, making
     room and reading can come to.  The policy sends a scanner on only while the stream is open, and
     room is made before it is offered.

  2. **The invariant** (`Held`).  A scanner that makes room or reads wants more bytes (`Wants`):
     nothing was answered for good, the stream is open, and the window is empty or the policy has
     just asked for more than all of it, with nothing but interrupted reads since.  Each step keeps
     this (`Held.step`).

  3. **After the end** (`run_of_atEof`, `run_of_done`).  A scanner that has seen the end of its
     stream, or has answered for good, never comes to a place again where it would read.

  4. **Delimiters** (`Prompt`).  The delimiter policy asks for more only where it sees no delimiter,
     so a record is given as soon as its delimiter is there.
-/
import RecordFeed.Proofs.Records.Lockstep
import RecordFeed.Proofs.Records.Scanning

namespace RecordFeed

/-- Such an answer is the last one that says anything: every one but a record. -/
def ScanAnswer.IsFinal : ScanAnswer → Prop
  | .ok (some _) => False
  | .ok none | .error _ => True

/-- The handle was read. -/
def Entry.IsRead : Entry → Prop
  | .read _ _ => True
  | .shown _ _ _ | .answered _ => False

namespace RawScanner

variable {η π : Type}

/-- The free bytes behind the window. -/
def free (s : RawScanner η π) : Bytes := s.buf.drop s.stop

/-- A scanner that wants more bytes.  The window is empty, or the policy was shown it and asked for
    more; since then only this has happened. -/
structure Wants (s : RawScanner η π) (transcript since : List Entry) : Prop where
  running : s.done = false
  unended : s.atEof = false
  asked : s.window = [] ∨
    ∃ before, transcript = before ++ .shown s.window false .needMore :: since

/-- Where a read leads, by its outcome.  An interruption leads to another read, with as much
    room, and nothing else does: bytes and the end of the stream lead to the policy, and a
    failure is answered. -/
inductive Led (s t : RawScanner η π) : ReadOutcome η → List Entry → Prop where
  | interrupted {next : η} (point : t.point = .reading) (handle : t.handle = next)
      (room : t.free.length = s.free.length) (window : t.window = s.window)
      (policy : t.policy = s.policy) (done : t.done = s.done) (atEof : t.atEof = s.atEof) :
      Led s t (.interrupted next) [.read s.free.length []]
  | data {bytes : Bytes} {next : η} (point : t.point = .asking) (handle : t.handle = next)
      (window : t.window = s.window ++ bytes) (policy : t.policy = s.policy)
      (done : t.done = s.done) (atEof : t.atEof = s.atEof) :
      Led s t (.data bytes next) [.read s.free.length bytes]
  | ended {next : η} (point : t.point = .asking) (handle : t.handle = next)
      (window : t.window = s.window) (policy : t.policy = s.policy) (done : t.done = s.done)
      (atEof : t.atEof = true) :
      Led s t (.ended next) [.read s.free.length []]
  | failed {error : IoError} {next : η} (point : t.point = .between) (handle : t.handle = next)
      (window : t.window = s.window) (policy : t.policy = s.policy) (done : t.done = true) :
      Led s t (.failed error next) [.read s.free.length [], .answered (.error (.io error))]

/-- A scanner that holds back, at the end of a run with this transcript. -/
structure Restrained [SplitPolicy π] (s : RawScanner η π) (transcript : List Entry) : Prop where
  /-- Only where it reads does a step depend on what a handle does. -/
  untouched : s.point ≠ .reading → ∀ r r' : Reader η, s.step r = s.step r'
  /-- It reads when it wants more bytes, and has done nothing since but be interrupted. -/
  wants : s.point = .reading → ∃ n, s.Wants transcript (List.replicate n (.read s.free.length []))
  /-- There is room, and there always was, so a read that gives nothing is the end of the stream. -/
  room : s.point = .reading → s.free ≠ []
  rooms : ∀ room bytes, Entry.read room bytes ∈ transcript → 0 < room
  /-- The handle is shown just the free bytes, and what comes of it depends on nothing else. -/
  leads : s.point = .reading → ∀ r : Reader η,
    ∃ t entries, s.step r = .ok (t, entries) ∧ s.Led t (r.read s.handle s.free).1 entries
  /-- When the stream has ended, nothing is read any more, and the buffer stays as it is. -/
  ended : s.atEof = true → ∀ readers : List (Reader η),
    ∃ t entries, run readers s = .ok (t, entries) ∧ t.buf = s.buf ∧ ∀ e ∈ entries, ¬ e.IsRead
  /-- After the last answer that says anything, every call takes two steps, says that there is
      nothing, and leaves everything as it is. -/
  final : (∃ answer ∈ Entry.answers transcript, answer.IsFinal) → ∀ readers : List (Reader η),
    ∃ point n, run readers s = .ok ({ s with point }, List.replicate n (.answered (.ok none))) ∧
      readers.length ≤ 2 * n + 1

/-- A scanner that gives a record as soon as its delimiter is in the window. -/
structure Prompt (delimiter : Bytes) (s : RawScanner η Delimiter) : Prop where
  /-- With a delimiter in the window it neither makes room nor reads. -/
  here : Bytes.firstAt? delimiter s.window ≠ none → s.point = .between ∨ s.point = .asking
  /-- The next step of a call gives the record before the first delimiter. -/
  cuts : ∀ i, Bytes.firstAt? delimiter s.window = some i → s.point = .asking →
    ∀ r : Reader η, ∃ t, s.step r = .ok (t,
      [.shown s.window s.atEof (.token (i + delimiter.length) 0 i),
        .answered (.ok (some (s.window.take i)))])

/-! ## One step

  For each place in the loop there is a list of all that a step from there can come to.  The
  lists are proved once, from the definition of the step, and whatever is shown of steps below
  is shown by going through them. -/

variable {s t : RawScanner η π} {transcript entries : List Entry}

/-- What is not before the end of the window is free. -/
theorem length_free (s : RawScanner η π) : s.free.length = s.buf.length - s.stop := List.length_drop

/-- There is room when the window ends before the buffer does. -/
theorem free_ne_nil (h : s.stop < s.buf.length) : s.free ≠ [] := by
  apply List.ne_nil_of_length_pos
  rw [length_free]
  omega

/-- All that turning to the policy can come to. -/
inductive Asked [SplitPolicy π] (s : RawScanner η π) : RawScanner η π → List Entry → Prop where
  | ended (hdone : s.done = true) :
      Asked s { s with done := true, point := .between } [.answered (.ok none)]
  | waits (hrunning : s.done = false) (hopen : s.atEof = false) (hempty : s.window = []) :
      Asked s { s with point := .compacting } []
  | more {policy : π} (hrunning : s.done = false) (hopen : s.atEof = false)
      (hdecided : SplitPolicy.split s.policy s.window s.atEof = (.needMore, policy)) :
      Asked s { s with policy, point := .compacting } [.shown s.window false .needMore]
  | cut {policy : π} {advance start stop : Nat} (hrunning : s.done = false)
      (hdecided : SplitPolicy.split s.policy s.window s.atEof = (.token advance start stop, policy))
      (hfits : Split.Fits advance start stop s.window.length) :
      Asked s { s with policy, start := s.start + advance, point := .between }
        [.shown s.window s.atEof (.token advance start stop),
          .answered (.ok (some ((s.window.take stop).drop start)))]
  | closed {policy : π} {decision : Split} {answer : ScanAnswer} (hrunning : s.done = false)
      (hdecided : SplitPolicy.split s.policy s.window s.atEof = (decision, policy))
      (hunfit : ∀ advance start stop, decision = .token advance start stop →
        ¬ Split.Fits advance start stop s.window.length)
      (hfinal : answer.IsFinal) :
      Asked s { s with policy, done := true, point := .between }
        [.shown s.window s.atEof decision, .answered answer]

/-- Turning to the policy has a result, and it is one of these.  The branches of `ask` and `act` are
    gone through here and nowhere else. -/
theorem asked_of_ask [SplitPolicy π] (h : s.InRange) :
    ∃ t entries, s.ask = .ok (t, entries) ∧ Asked s t entries := by
  cases hdone : s.done with
  | true => exact ⟨_, _, if_pos hdone, .ended hdone⟩
  | false =>
    by_cases hshow : s.start < s.stop ∨ s.atEof = true
    · obtain ⟨⟨decision, policy⟩, hdecided⟩ :
          ∃ decided, SplitPolicy.split s.policy s.window s.atEof = decided := ⟨_, rfl⟩
      rw [ask_eq h hdone hshow, hdecided]
      -- the policy moves on, which neither the window nor the indices see
      have hmoved : ({ s with policy } : RawScanner η π).InRange := h.of_registers rfl
      cases decision with
      | token advance start stop =>
        by_cases hfits : Split.Fits advance start stop s.window.length
        · have hact := act_fits hmoved hfits
          exact ⟨_, _, congrArg (Except.bind · _) hact, .cut hdone hdecided hfits⟩
        · have hact := act_overrun (s := { s with policy }) hfits
          refine ⟨_, _, congrArg (Except.bind · _) hact, .closed hdone hdecided ?_ trivial⟩
          intro advance' start' stop' htoken
          obtain ⟨rfl, rfl, rfl⟩ := Split.token.inj htoken
          exact hfits
      | finished => exact ⟨_, _, rfl, .closed hdone hdecided (by simp) trivial⟩
      | needMore =>
        by_cases hEof : s.atEof = true
        · have hact : act { s with policy } s.window .needMore =
              .ok (({ s with policy } : RawScanner η π).settle (.ok none)) := if_pos hEof
          exact ⟨_, _, congrArg (Except.bind · _) hact, .closed hdone hdecided (by simp) trivial⟩
        · have hact : act { s with policy } s.window .needMore =
              .ok ({ s with policy, point := .compacting }, []) := if_neg hEof
          have hopen : s.atEof = false := by simpa using hEof
          have hmore := Asked.more hdone hopen hdecided
          rw [← hopen] at hmore
          exact ⟨_, _, congrArg (Except.bind · _) hact, hmore⟩
    · have hopen : s.atEof = false := by
        simpa using fun hEof => hshow (Or.inr hEof)
      -- no byte, and more may come: the policy is not even asked
      have hempty : s.window = [] := by
        apply List.eq_nil_of_length_eq_zero
        rw [h.length_window]
        omega
      have hask : s.ask = .ok ({ s with point := .compacting }, []) := by
        rw [ask, hdone]
        exact if_neg hshow
      exact ⟨_, _, hask, .waits hdone hopen hempty⟩

/-- All that making the buffer longer can come to: it is refused for good, or there is room. -/
inductive Grown (s : RawScanner η π) : RawScanner η π → List Entry → Prop where
  | full : Grown s { s with done := true, point := .between }
      [.answered (.error (.tokenTooLarge s.limit))]
  | room {t : RawScanner η π} (hpoint : t.point = .reading) (hroom : t.stop < t.buf.length)
      (hwindow : t.window = s.window) (hdone : t.done = s.done) (hEof : t.atEof = s.atEof)
      (hpolicy : t.policy = s.policy) (hhandle : t.handle = s.handle) : Grown s t []

/-- Making the buffer longer comes to one of these.  A full buffer below its limit becomes longer by
    at least one byte. -/
theorem grown_of_grow (h : s.InRange) (hgrow : s.grow = .ok (t, entries)) : Grown s t entries := by
  by_cases hend : s.stop = s.buf.length
  · by_cases hlimit : s.buf.length < s.limit
    · have hgrown := lt_grown hlimit
      rw [grow_resize h hend hlimit] at hgrow
      by_cases hmemory : s.grown < Checked.memory
      · rw [resize_eq (Nat.le_of_lt hgrown) hmemory] at hgrow
        obtain ⟨rfl, rfl⟩ := Prod.mk.inj (Except.ok.inj hgrow)
        refine .room rfl ?_ (window_append h _ _) rfl rfl rfl rfl
        show s.stop < (s.buf ++ _).length
        rw [List.length_append, List.length_replicate]
        omega
      · rw [Checked.resize, if_neg hmemory] at hgrow
        simp [Except.bind] at hgrow
    · rw [grow_full hend (Nat.not_lt.mp hlimit)] at hgrow
      obtain ⟨rfl, rfl⟩ := Prod.mk.inj (Except.ok.inj hgrow)
      exact .full
  · have hstop := h.stop_le
    rw [grow_open hend] at hgrow
    obtain ⟨rfl, rfl⟩ := Prod.mk.inj (Except.ok.inj hgrow)
    exact .room rfl (by show s.stop < s.buf.length; omega) rfl rfl rfl rfl rfl

/-- A read leads where its outcome says. -/
theorem led_of_read (h : s.InRange) (hpoint : s.point = .reading) (r : Reader η) :
    ∃ t entries, s.read r = .ok (t, entries) ∧ s.Led t (r.read s.handle s.free).1 entries := by
  have hleft := r.length_read s.handle s.free
  rw [length_free] at hleft
  obtain ⟨hrange, hwindow, hlength, hfree⟩ := leave_spec h hleft
  rw [read_eq h, ← length_free]
  show ∃ t entries,
    (s.leave (r.read s.handle s.free).2).receive s.free.length (r.read s.handle s.free).1 =
      .ok (t, entries) ∧ _
  cases hread : (r.read s.handle s.free).1 with
  | data bytes next =>
    have hgiven : bytes <+: (s.leave (r.read s.handle s.free).2).buf.drop s.stop := by
      rw [hfree]
      exact (r.data_read hread).2
    obtain ⟨t, hreceive, rfl, -, hmore⟩ := receive_data hrange hgiven s.free.length next
    rw [hwindow] at hmore
    exact ⟨_, _, hreceive, .data rfl rfl hmore rfl rfl rfl⟩
  | interrupted next =>
    refine ⟨_, _, rfl, .interrupted hpoint rfl ?_ hwindow rfl rfl rfl⟩
    rw [length_free, length_free]
    exact congrArg (· - s.stop) hlength
  | ended next => exact ⟨_, _, rfl, .ended rfl rfl hwindow rfl rfl rfl⟩
  | failed error next => exact ⟨_, _, rfl, .failed rfl rfl hwindow rfl rfl⟩

/-- All that a step can come to. -/
inductive Stepped [SplitPolicy π] (r : Reader η) (s : RawScanner η π) :
    RawScanner η π → List Entry → Prop where
  | begins (hpoint : s.point = .between) : Stepped r s { s with point := .asking } []
  | asks {t : RawScanner η π} {entries : List Entry} (hpoint : s.point = .asking)
      (hasked : Asked s t entries) : Stepped r s t entries
  | compacts {t : RawScanner η π} (hpoint : s.point = .compacting) (hmoved : Moved s t) :
      Stepped r s t []
  | grows {t : RawScanner η π} {entries : List Entry} (hpoint : s.point = .growing)
      (hgrown : Grown s t entries) : Stepped r s t entries
  | reads {t : RawScanner η π} {entries : List Entry} (hpoint : s.point = .reading)
      (hled : s.Led t (r.read s.handle s.free).1 entries) : Stepped r s t entries

/-- Whatever is to be shown of every step is shown of these five. -/
theorem stepped_of_step [SplitPolicy π] (h : s.InRange) {r : Reader η}
    (hstep : s.step r = .ok (t, entries)) : Stepped r s t entries := by
  unfold RawScanner.step at hstep
  cases hpoint : s.point with
  | between =>
    rw [hpoint] at hstep
    obtain ⟨rfl, rfl⟩ := Prod.mk.inj (Except.ok.inj hstep)
    exact .begins hpoint
  | asking =>
    rw [hpoint] at hstep
    obtain ⟨t', entries', hask, hasked⟩ := asked_of_ask h
    obtain ⟨rfl, rfl⟩ := Prod.mk.inj (Except.ok.inj (hask.symm.trans hstep))
    exact .asks hpoint hasked
  | compacting =>
    rw [hpoint] at hstep
    obtain ⟨t', hcompact, hmoved⟩ := compact_spec h
    obtain ⟨rfl, rfl⟩ := Prod.mk.inj (Except.ok.inj (hcompact.symm.trans hstep))
    exact .compacts hpoint hmoved
  | growing =>
    rw [hpoint] at hstep
    exact .grows hpoint (grown_of_grow h hstep)
  | reading =>
    rw [hpoint] at hstep
    obtain ⟨t', entries', hread, hled⟩ := led_of_read h hpoint r
    obtain ⟨rfl, rfl⟩ := Prod.mk.inj (Except.ok.inj (hread.symm.trans hstep))
    exact .reads hpoint hled

/-! ## The invariant

  To read is right only for a reason, and the reason was found two or more steps before.  So
  the invariant keeps it: a scanner that is on its way to a read wants more bytes, and the
  transcript says since when. -/

/-- Why a scanner stands where it stands.  Between two calls and before the policy there is none to
    give. -/
def Placed (s : RawScanner η π) (transcript : List Entry) : Prop :=
  match s.point with
  | .between | .asking => True
  | .compacting | .growing => s.Wants transcript []
  | .reading => s.free ≠ [] ∧ ∃ n, s.Wants transcript (List.replicate n (.read s.free.length []))

/-- What every step keeps: the reason for the place, and that nothing comes after an answer for
    good. -/
structure Held (s : RawScanner η π) (transcript : List Entry) : Prop where
  placed : s.Placed transcript
  final : (∃ answer ∈ Entry.answers transcript, answer.IsFinal) → s.done = true
  rooms : ∀ room bytes, Entry.read room bytes ∈ transcript → 0 < room

/-- What a step adds to a transcript: room in every read, and no answer for good without an end. -/
structure Sparing (t : RawScanner η π) (entries : List Entry) : Prop where
  final : ∀ answer ∈ Entry.answers entries, answer.IsFinal → t.done = true
  rooms : ∀ room bytes, Entry.read room bytes ∈ entries → 0 < room

/-- So a step has to account for its place and for what it adds. -/
theorem Held.of_place (h : s.Held transcript) (hdone : s.done = true → t.done = true)
    (hsparing : t.Sparing entries) (hplaced : t.Placed (transcript ++ entries)) :
    t.Held (transcript ++ entries) := by
  refine ⟨hplaced, ?_, ?_⟩
  · -- an answer for good was given before the step or in it
    rintro ⟨answer, hmem, hfinal⟩
    rw [Entry.answers_append, List.mem_append] at hmem
    rcases hmem with hbefore | hafter
    · exact hdone (h.final ⟨answer, hbefore, hfinal⟩)
    · exact hsparing.final answer hafter hfinal
  · intro room bytes hmem
    rcases List.mem_append.mp hmem with hbefore | hafter
    · exact h.rooms room bytes hbefore
    · exact hsparing.rooms room bytes hafter

/-- Where nothing is read, only an answer for good has to be looked at.  Most steps are such. -/
theorem Sparing.of_unread (hfinal : ∀ answer ∈ Entry.answers entries, answer.IsFinal → t.done = true)
    (hreads : ∀ e ∈ entries, ¬ e.IsRead) : t.Sparing entries :=
  ⟨hfinal, fun _ _ hmem => absurd trivial (hreads _ hmem)⟩

theorem sparing_nil (t : RawScanner η π) : t.Sparing [] :=
  .of_unread (by simp [Entry.answers]) (by simp)

/-- One read, and no answer. -/
theorem sparing_read {room : Nat} (hroom : 0 < room) (bytes : Bytes) :
    t.Sparing [.read room bytes] := by
  refine ⟨by simp [Entry.answers], ?_⟩
  intro room' bytes' hmem
  rw [List.mem_singleton] at hmem
  obtain ⟨rfl, -⟩ := Entry.read.inj hmem
  exact hroom

/-- A scanner that wants more bytes still does where it has only been moved about. -/
theorem Wants.of_window {since : List Entry} (h : s.Wants transcript since)
    (hdone : t.done = s.done) (hEof : t.atEof = s.atEof) (hwindow : t.window = s.window)
    (more : List Entry) : t.Wants (transcript ++ more) (since ++ more) := by
  refine ⟨hdone.trans h.running, hEof.trans h.unended, ?_⟩
  rw [hwindow]
  rcases h.asked with hempty | ⟨before, rfl⟩
  · exact Or.inl hempty
  · exact Or.inr ⟨before, by simp⟩

/-- Turning to the policy.  Only where it asked for more is there a place that needs a reason, and
    then it has just given it. -/
theorem Held.ask [SplitPolicy π] (h : s.Held transcript) (hasked : Asked s t entries) :
    t.Held (transcript ++ entries) := by
  cases hasked with
  | ended hdone =>
    exact h.of_place (fun _ => rfl) (.of_unread (fun _ _ _ => rfl) (by simp [Entry.IsRead])) trivial
  | waits hrunning hopen hempty =>
    exact h.of_place id (sparing_nil _) ⟨hrunning, hopen, Or.inl hempty⟩
  | more hrunning hopen hdecided =>
    refine h.of_place id (.of_unread (by simp [Entry.answers]) (by simp [Entry.IsRead])) ?_
    exact ⟨hrunning, hopen, Or.inr ⟨transcript, rfl⟩⟩
  | cut hrunning hdecided hfits =>
    refine h.of_place id (.of_unread ?_ (by simp [Entry.IsRead])) trivial
    intro answer hmem hfinal
    obtain rfl : answer = .ok (some _) := by simpa [Entry.answers] using hmem
    exact hfinal.elim
  | closed hrunning hdecided hunfit hfinal =>
    exact h.of_place (fun _ => rfl) (.of_unread (fun _ _ _ => rfl) (by simp [Entry.IsRead])) trivial

/-- Moving the window.  Its bytes stay, so the reason does. -/
theorem Held.compact (h : s.Held transcript) (hpoint : s.point = .compacting) (hmoved : Moved s t) :
    t.Held (transcript ++ []) := by
  have hsame := hmoved.same
  have hdone : t.done = s.done := by rw [hsame]
  have hplaced := h.placed
  simp only [Placed, hpoint] at hplaced
  refine h.of_place (by rw [hdone]; exact id) (sparing_nil t) ?_
  have hgrowing : t.point = .growing := by rw [hsame]
  simp only [Placed, hgrowing]
  exact hplaced.of_window hdone (by rw [hsame]) hmoved.window_eq []

/-- Making room.  A refusal is an answer for good. -/
theorem Held.grow (h : s.Held transcript) (hpoint : s.point = .growing) (hgrown : Grown s t entries) :
    t.Held (transcript ++ entries) := by
  cases hgrown with
  | full =>
    exact h.of_place (fun _ => rfl) (.of_unread (fun _ _ _ => rfl) (by simp [Entry.IsRead])) trivial
  | room hreading hroom hwindow hdone hEof hpolicy hhandle =>
    have hplaced := h.placed
    simp only [Placed, hpoint] at hplaced
    refine h.of_place (by rw [hdone]; exact id) (sparing_nil t) ?_
    simp only [Placed, hreading]
    exact ⟨free_ne_nil hroom, 0, hplaced.of_window hdone hEof hwindow []⟩

/-- Reading.  After an interruption the scanner stands where it stood, with one read more behind
    it. -/
theorem Held.read (h : s.Held transcript) (hpoint : s.point = .reading) {outcome : ReadOutcome η}
    (hled : s.Led t outcome entries) : t.Held (transcript ++ entries) := by
  have hplaced := h.placed
  simp only [Placed, hpoint] at hplaced
  obtain ⟨hfree, n, hwants⟩ := hplaced
  have hroom : 0 < s.free.length := List.length_pos_iff.mpr hfree
  cases hled with
  | data hasking hhandle hwindow hpolicy hdone hEof
  | ended hasking hhandle hwindow hpolicy hdone hEof =>
    refine h.of_place (by rw [hdone]; exact id) (sparing_read hroom _) ?_
    simp only [Placed, hasking]
  | failed hbetween hhandle hwindow hpolicy hdone =>
    refine h.of_place (fun _ => hdone) ⟨fun _ _ _ => hdone, ?_⟩ ?_
    · intro room bytes hmem
      obtain ⟨rfl, -⟩ : room = s.free.length ∧ bytes = [] := by simpa using hmem
      exact hroom
    · simp only [Placed, hbetween]
  | interrupted hreading hhandle hlength hwindow hpolicy hdone hEof =>
    refine h.of_place (by rw [hdone]; exact id) (sparing_read hroom []) ?_
    simp only [Placed, hreading]
    refine ⟨?_, n + 1, ?_⟩
    · rw [← List.length_pos_iff, hlength]
      exact hroom
    · -- the new read is added behind those that were interrupted before
      rw [hlength, List.replicate_succ']
      exact hwants.of_window hdone hEof hwindow _

/-- **A step** keeps the invariant. -/
theorem Held.step [SplitPolicy π] (h : s.Held transcript) (hrange : s.InRange) {r : Reader η}
    (hstep : s.step r = .ok (t, entries)) : t.Held (transcript ++ entries) := by
  cases stepped_of_step hrange hstep with
  | begins => exact h.of_place id (sparing_nil _) trivial
  | asks _ hasked => exact h.ask hasked
  | compacts hpoint hmoved => exact h.compact hpoint hmoved
  | grows hpoint hgrown => exact h.grow hpoint hgrown
  | reads hpoint hled => exact h.read hpoint hled

/-! ## After the end

  After the end of the stream a scanner goes between two places only, and neither of them looks
  at the handle.  This is said of runs, as a single step would not show that it stays so. -/

/-- A run of one step more. -/
theorem run_cons [SplitPolicy π] {u : RawScanner η π} {r : Reader η} {later : List (Reader η)}
    {more : List Entry} (h : s.step r = .ok (t, entries)) (h' : run later t = .ok (u, more)) :
    run (r :: later) s = .ok (u, entries ++ more) := by
  rw [run, h]
  show (run later t).bind _ = _
  rw [h']
  rfl

/-- **A scanner that has answered for good** is done with a call in two steps, and only its place in
    the loop changes.  By induction on the steps, from both places at once, because each step leads
    from the one to the other. -/
theorem run_of_done [SplitPolicy π] (hdone : s.done = true) (readers : List (Reader η)) :
    (∃ point n, run readers { s with point := .between } =
        .ok ({ s with point }, List.replicate n (.answered (.ok none))) ∧
      readers.length ≤ 2 * n + 1) ∧
    ∃ point n, run readers { s with point := .asking } =
        .ok ({ s with point }, List.replicate n (.answered (.ok none))) ∧
      readers.length ≤ 2 * n := by
  induction readers with
  | nil => exact ⟨⟨.between, 0, rfl, Nat.zero_le _⟩, ⟨.asking, 0, rfl, Nat.le_refl _⟩⟩
  | cons r later ih =>
    obtain ⟨⟨point, n, hbetween, hcount⟩, point', n', hasking, hcount'⟩ := ih
    constructor
    · have hbegin : ({ s with point := .between } : RawScanner η π).step r =
          .ok ({ s with point := .asking }, []) := rfl
      refine ⟨point', n', run_cons hbegin hasking, ?_⟩
      rw [List.length_cons]
      omega
    · -- a question that is answered without the policy
      have hanswer : ({ s with point := .asking } : RawScanner η π).step r =
          .ok ({ s with point := .between }, [.answered (.ok none)]) := by
        show ({ s with point := .asking } : RawScanner η π).ask = _
        rw [ask, if_pos hdone, settle, ← hdone]
      refine ⟨point, n + 1, run_cons hanswer hbetween, ?_⟩
      rw [List.length_cons]
      omega

/-- **A scanner that has seen the end of its stream** goes round between its calls and the policy.
    By induction on the steps.  The places where it would make room or read are reached only through
    a wish for more bytes, and that is for open streams. -/
theorem run_of_atEof [SplitPolicy π] (h : s.InRange) (hEof : s.atEof = true)
    (hpoint : s.point = .between ∨ s.point = .asking) (readers : List (Reader η)) :
    ∃ t entries, run readers s = .ok (t, entries) ∧ t.buf = s.buf ∧ ∀ e ∈ entries, ¬ e.IsRead := by
  induction readers generalizing s with
  | nil => exact ⟨s, [], rfl, rfl, by simp⟩
  | cons r later ih =>
    suffices hnext : ∃ t entries, s.step r = .ok (t, entries) ∧ t.buf = s.buf ∧ t.atEof = true ∧
        (t.point = .between ∨ t.point = .asking) ∧ ∀ e ∈ entries, ¬ e.IsRead by
      obtain ⟨t, entries, hstep, hbuf, hEof', hpoint', hreads⟩ := hnext
      obtain ⟨u, more, hrun, hsame, hlater⟩ := ih (h.of_step hstep).inRange hEof' hpoint'
      refine ⟨u, _, run_cons hstep hrun, hsame.trans hbuf, ?_⟩
      intro e he
      rcases List.mem_append.mp he with hfirst | hrest
      · exact hreads e hfirst
      · exact hlater e hrest
    rcases hpoint with hbetween | hasking
    · refine ⟨{ s with point := .asking }, [], ?_, rfl, hEof, Or.inr rfl, by simp⟩
      rw [step, hbetween]
    · obtain ⟨t, entries, hask, hasked⟩ := asked_of_ask h
      have hstep : s.step r = .ok (t, entries) := by
        rw [step, hasking]
        exact hask
      refine ⟨t, entries, hstep, ?_⟩
      cases hasked with
      | ended | cut | closed => exact ⟨rfl, hEof, Or.inl rfl, by simp [Entry.IsRead]⟩
      | waits hrunning hopen | more hrunning hopen =>
        -- the policy is asked for more only on an open stream
        rw [hEof] at hopen
        exact absurd hopen (by decide)

/-! ## Runs

  An invariant that every step keeps holds at the end of every run.  It is stated for any
  invariant, for several are used: this one here, that of delimiters, and those of other
  modules. -/

/-- A run ends with something that holds; or without memory, and then because the limit allows for
    more than there is. -/
def Ends (limit : Nat) (holds : RawScanner η π → List Entry → Prop) :
    Except Trap (RawStep η π) → Prop
  | .ok (s, transcript) => holds s transcript
  | .error trap => trap = .outOfMemory ∧ Checked.memory ≤ limit

/-- What is weaker holds as well. -/
theorem Ends.mono {limit : Nat} {holds holds' : RawScanner η π → List Entry → Prop}
    {ending : Except Trap (RawStep η π)} (h : Ends limit holds ending)
    (himp : ∀ s transcript, holds s transcript → holds' s transcript) :
    Ends limit holds' ending := by
  cases ending with
  | ok result => exact himp _ _ h
  | error trap => exact h

/-- What holds at the end of the steps after the first one holds at the end of all of them. -/
theorem ends_cons [SplitPolicy π] {limit : Nat} {holds : RawScanner η π → List Entry → Prop}
    {r : Reader η} {later : List (Reader η)} (hstep : s.step r = .ok (t, entries))
    (h : Ends limit (fun u more => holds u (entries ++ more)) (run later t)) :
    Ends limit holds (run (r :: later) s) := by
  cases hlater : run later t with
  | ok rest =>
    rw [hlater] at h
    rw [run_cons hstep hlater]
    exact h
  | error trap =>
    rw [hlater] at h
    have hrun : run (r :: later) s = .error trap := by
      rw [run, hstep]
      show (run later t).bind _ = _
      rw [hlater]
      rfl
    rw [hrun]
    exact h

/-- A run that asks for more memory than there is ends there. -/
theorem ends_of_outOfMemory [SplitPolicy π] {limit : Nat} {holds : RawScanner η π → List Entry → Prop}
    {r : Reader η} (later : List (Reader η)) (hstep : s.step r = .error .outOfMemory)
    (hlimit : Checked.memory ≤ limit) : Ends limit holds (run (r :: later) s) := by
  have hrun : run (r :: later) s = .error .outOfMemory := by
    rw [run, hstep]
    rfl
  rw [hrun]
  exact ⟨rfl, hlimit⟩

/-- **What every step over some readers keeps, a run over them keeps.** By induction on the steps.
    The transcript before the run is carried along, since an invariant may speak of all of it. -/
theorem run_keeps_of_mem [SplitPolicy π] (holds : RawScanner η π → List Entry → Prop)
    (readers : List (Reader η))
    (hstep : ∀ {s t : RawScanner η π} {transcript entries : List Entry}, ∀ r ∈ readers, s.InRange →
      holds s transcript → s.step r = .ok (t, entries) → holds t (transcript ++ entries))
    (h : s.InRange) (transcript : List Entry) (hs : holds s transcript) :
    Ends s.limit (fun t later => t.InRange ∧ holds t (transcript ++ later)) (run readers s) := by
  induction readers generalizing s transcript with
  | nil =>
    show s.InRange ∧ holds s (transcript ++ [])
    rw [List.append_nil]
    exact ⟨h, hs⟩
  | cons r later ih =>
    rcases step_spec h r with ⟨t, entries, hfirst, hkeeps⟩ | ⟨hfirst, hlimit⟩
    · have hhere := hstep r List.mem_cons_self h hs hfirst
      have hrest := ih (fun r' hr' => hstep r' (List.mem_cons_of_mem r hr')) hkeeps.inRange _ hhere
      rw [hkeeps.limit_eq] at hrest
      refine ends_cons hfirst (hrest.mono fun u more hmore => ?_)
      rw [← List.append_assoc]
      exact hmore
    · exact ends_of_outOfMemory later hfirst hlimit

/-- The same where a step keeps it over whatever reader. -/
theorem run_keeps [SplitPolicy π] (holds : RawScanner η π → List Entry → Prop)
    (hstep : ∀ {s t : RawScanner η π} {transcript entries : List Entry} {r : Reader η}, s.InRange →
      holds s transcript → s.step r = .ok (t, entries) → holds t (transcript ++ entries))
    (readers : List (Reader η)) (h : s.InRange) (hs : holds s transcript) :
    Ends s.limit (fun t later => t.InRange ∧ holds t (transcript ++ later)) (run readers s) :=
  run_keeps_of_mem holds readers (fun _ _ => hstep) h transcript hs

/-- A new scanner stands between two calls, which needs no reason. -/
theorem held_fresh (handle : η) (policy : π) (limit : Nat) : (fresh handle policy limit).Held [] :=
  ⟨trivial, by simp [Entry.answers], by simp⟩

/-- A scanner that has seen the end, or has answered for good, stands where it does not read.  The
    other three places need a reason that it does not have. -/
theorem Held.point_of (h : s.Held transcript) (hended : s.atEof = true ∨ s.done = true) :
    s.point = .between ∨ s.point = .asking := by
  have hplaced := h.placed
  have hwants : ∀ since, ¬ s.Wants transcript since := by
    intro since hwants
    rcases hended with hEof | hdone
    · simp [hwants.unended] at hEof
    · simp [hwants.running] at hdone
  cases hpoint : s.point with
  | between => exact Or.inl rfl
  | asking => exact Or.inr rfl
  | compacting | growing =>
    simp only [Placed, hpoint] at hplaced
    exact absurd hplaced (hwants _)
  | reading =>
    simp only [Placed, hpoint] at hplaced
    obtain ⟨-, n, hreading⟩ := hplaced
    exact absurd hreading (hwants _)

/-- **A scanner that keeps the invariant holds back.** -/
theorem Held.restrained [SplitPolicy π] (h : s.Held transcript) (hrange : s.InRange) :
    s.Restrained transcript where
  untouched hpoint r r' := by
    unfold RawScanner.step
    cases hplace : s.point with
    | reading => exact absurd hplace hpoint
    | between | asking | compacting | growing => rfl
  wants hpoint := by
    have hplaced := h.placed
    simp only [Placed, hpoint] at hplaced
    exact hplaced.2
  room hpoint := by
    have hplaced := h.placed
    simp only [Placed, hpoint] at hplaced
    exact hplaced.1
  rooms := h.rooms
  leads hpoint r := by
    obtain ⟨t, entries, hread, hled⟩ := led_of_read hrange hpoint r
    refine ⟨t, entries, ?_, hled⟩
    rw [RawScanner.step, hpoint]
    exact hread
  ended hEof readers := run_of_atEof hrange hEof (h.point_of (Or.inl hEof)) readers
  final hanswer readers := by
    have hdone := h.final hanswer
    -- the run begins in one of the two places of `run_of_done`
    obtain ⟨hbetween, hasking⟩ := run_of_done hdone readers
    rcases h.point_of (Or.inr hdone) with hpoint | hpoint
    · have hs : { s with point := .between } = s := by rw [← hpoint]
      rw [hs] at hbetween
      exact hbetween
    · have hs : { s with point := .asking } = s := by rw [← hpoint]
      rw [hs] at hasking
      obtain ⟨point, n, hrun, hcount⟩ := hasking
      exact ⟨point, n, hrun, by omega⟩

/-! ## Delimiters

  All before was about any policy.  The delimiter policy asks for more only in vain, so that a
  scanner which is on its way to a read has no delimiter in its window. -/

/-- A scanner under a delimiter goes for more bytes, or answers for good, only where it sees none.
    This is the one invariant that knows what a policy decides. -/
structure Vain (delimiter : Bytes) (s : RawScanner η Delimiter) : Prop where
  policy_eq : s.policy = ⟨delimiter⟩
  unseen : s.done = true ∨ s.point ≠ .between ∧ s.point ≠ .asking →
    Bytes.firstAt? delimiter s.window = none

section Delimiters

variable {delimiter : Bytes} {s t : RawScanner η Delimiter}

/-- What the policy decides when there is a delimiter. -/
theorem split_of_firstAt? (hpolicy : s.policy = ⟨delimiter⟩) {i : Nat}
    (h : Bytes.firstAt? delimiter s.window = some i) :
    SplitPolicy.split s.policy s.window s.atEof =
        (.token (i + delimiter.length) 0 i, ⟨delimiter⟩) ∧
      Split.Fits (i + delimiter.length) 0 i s.window.length := by
  have hend := (Bytes.firstAt?_eq_some_iff.mp h).1.add_length_le
  rw [hpolicy, Delimiter.policy_split, Delimiter.split_of_found h]
  exact ⟨rfl, hend, Nat.zero_le _, Nat.le_add_right _ _⟩

/-- **Turning to the policy** in vain means that there is no delimiter.  By what it came to. -/
theorem Vain.ask (h : s.Vain delimiter) (hasked : Asked s t entries) : t.Vain delimiter := by
  have hkeeps {decision : Split} {policy : Delimiter}
      (hdecided : SplitPolicy.split s.policy s.window s.atEof = (decision, policy)) :
      policy = ⟨delimiter⟩ := by
    rw [← h.policy_eq]
    exact (Prod.mk.inj hdecided).2.symm
  cases hasked with
  | ended hdone => exact ⟨h.policy_eq, fun _ => h.unseen (Or.inl hdone)⟩
  | waits hrunning hopen hempty =>
    refine ⟨h.policy_eq, fun _ => ?_⟩
    show Bytes.firstAt? delimiter s.window = none
    rw [hempty]
    exact Bytes.firstAt?_nil_right _
  | more hrunning hopen hdecided =>
    refine ⟨hkeeps hdecided, fun _ => ?_⟩
    show Bytes.firstAt? delimiter s.window = none
    cases hfound : Bytes.firstAt? delimiter s.window with
    | none => rfl
    | some i =>
      -- a delimiter would have been cut at
      rw [(split_of_firstAt? h.policy_eq hfound).1] at hdecided
      simp at hdecided
  | cut hrunning hdecided hfits =>
    refine ⟨hkeeps hdecided, ?_⟩
    -- a record was given, so the scanner is neither done nor far from the policy
    rintro (hdone | ⟨hplace, -⟩)
    · rw [hrunning] at hdone
      exact absurd hdone (by decide)
    · exact absurd rfl hplace
  | closed hrunning hdecided hunfit hfinal =>
    refine ⟨hkeeps hdecided, fun _ => ?_⟩
    show Bytes.firstAt? delimiter s.window = none
    cases hfound : Bytes.firstAt? delimiter s.window with
    | none => rfl
    | some i =>
      -- a delimiter would have fitted, so the call was not answered for good
      obtain ⟨hsplit, hfits⟩ := split_of_firstAt? h.policy_eq hfound
      rw [hdecided] at hsplit
      exact absurd hfits (hunfit _ _ _ (Prod.mk.inj hsplit).1)

/-- Making room and reading leave alone what was seen in vain.  The window is as it was when the
    policy was asked. -/
theorem Vain.of_far (h : s.Vain delimiter) (hfar : s.point ≠ .between ∧ s.point ≠ .asking)
    (hpolicy : t.policy = s.policy) (hwindow : t.window = s.window) : t.Vain delimiter := by
  refine ⟨hpolicy.trans h.policy_eq, ?_⟩
  intro _
  rw [hwindow]
  exact h.unseen (Or.inr hfar)

/-- Where the policy is next, nothing is claimed unless all was answered before. -/
theorem Vain.of_asking (h : s.Vain delimiter) (hasking : t.point = .asking)
    (hpolicy : t.policy = s.policy) (hdone : t.done = true → s.done = true ∧ t.window = s.window) :
    t.Vain delimiter := by
  refine ⟨hpolicy.trans h.policy_eq, ?_⟩
  rintro (hclosed | ⟨-, hplace⟩)
  · obtain ⟨hbefore, hwindow⟩ := hdone hclosed
    rw [hwindow]
    exact h.unseen (Or.inl hbefore)
  · exact absurd hasking hplace

/-- **A step** of a scanner that holds back. -/
theorem Vain.step (h : s.Vain delimiter) (hheld : s.Held transcript) (hrange : s.InRange)
    {r : Reader η} (hstep : s.step r = .ok (t, entries)) : t.Vain delimiter := by
  cases stepped_of_step hrange hstep with
  | begins => exact h.of_asking rfl rfl fun hdone => ⟨hdone, rfl⟩
  | asks _ hasked => exact h.ask hasked
  | compacts hpoint hmoved =>
    exact h.of_far (by simp [hpoint]) (by rw [hmoved.same]) hmoved.window_eq
  | grows hpoint hgrown =>
    cases hgrown with
    | full => exact h.of_far (by simp [hpoint]) rfl rfl
    | room hreading hroom hwindow hdone hEof hpolicy hhandle =>
      exact h.of_far (by simp [hpoint]) hpolicy hwindow
  | reads hpoint hled =>
    have hplaced := hheld.placed
    simp only [Placed, hpoint] at hplaced
    obtain ⟨-, n, hwants⟩ := hplaced
    generalize (r.read s.handle s.free).1 = outcome at hled
    cases hled with
    | interrupted hreading hhandle hlength hwindow hpolicy hdone hEof =>
      exact h.of_far (by simp [hpoint]) hpolicy hwindow
    | failed hbetween hhandle hwindow hpolicy hdone =>
      exact h.of_far (by simp [hpoint]) hpolicy hwindow
    | data hasking hhandle hwindow hpolicy hdone hEof
    | ended hasking hhandle hwindow hpolicy hdone hEof =>
      apply h.of_asking hasking hpolicy
      -- bytes or the end came to a scanner that was running, and nothing is claimed of one
      intro hclosed
      rw [hdone, hwants.running] at hclosed
      exact absurd hclosed (by decide)

/-- **A scanner that looked in vain is prompt.** With a delimiter in the window every result but a
    cut would contradict what was seen. -/
theorem Vain.prompt (h : s.Vain delimiter) (hrange : s.InRange) : s.Prompt delimiter where
  here hfound := by
    by_contra hfar
    rw [not_or] at hfar
    exact hfound (h.unseen (Or.inr hfar))
  cuts i hfound hasking r := by
    obtain ⟨hsplit, hfits⟩ := split_of_firstAt? h.policy_eq hfound
    obtain ⟨t, entries, hask, hasked⟩ := asked_of_ask hrange
    have hstep : s.step r = .ok (t, entries) := by
      rw [RawScanner.step, hasking]
      exact hask
    cases hasked with
    | ended hdone =>
      rw [h.unseen (Or.inl hdone)] at hfound
      simp at hfound
    | waits hrunning hopen hempty =>
      rw [hempty, Bytes.firstAt?_nil_right] at hfound
      simp at hfound
    | more hrunning hopen hdecided =>
      rw [hsplit] at hdecided
      simp at hdecided
    | cut hrunning hdecided hfits' =>
      rw [hsplit] at hdecided
      obtain ⟨rfl, rfl, rfl⟩ := Split.token.inj (Prod.mk.inj hdecided).1
      exact ⟨_, hstep⟩
    | closed hrunning hdecided hunfit hfinal =>
      rw [hsplit] at hdecided
      exact absurd hfits (hunfit _ _ _ (Prod.mk.inj hdecided).1.symm)

end Delimiters

/-! ## All runs -/

/-- What holds at the end of every run of a raw scanner.  The calls of the scanner for which it
    stands are such runs, with the same answers and the same events, as long as what the scanner
    allocates fits into memory. -/
structure Throughout [SplitPolicy π] (handle : η) (policy : π) (limit : Nat)
    (holds : RawScanner η π → List Entry → Prop) : Prop where
  runs : ∀ readers : List (Reader η), Ends limit holds (run readers (fresh handle policy limit))
  calls : ∀ (ω : Type) [ByteSource ω η] (ws : List ω),
    Checked.memory ≤ ((Scanner.fresh handle policy limit).calls ws).next.capacity ∨
    ∃ counts s transcript, counts.length = ws.length ∧
      run (stretches ws counts) (fresh handle policy limit) = .ok (s, transcript) ∧
      s.Stands ((Scanner.fresh handle policy limit).calls ws).next ∧
      Entry.answers transcript = ((Scanner.fresh handle policy limit).calls ws).answer ∧
      Entry.events transcript = ((Scanner.fresh handle policy limit).calls ws).events ∧
      holds s transcript

/-- What holds of all runs holds of the calls, since the calls are runs (`run_calls`). -/
theorem throughout_of_runs [SplitPolicy π] {handle : η} {policy : π} {limit : Nat}
    {holds : RawScanner η π → List Entry → Prop}
    (h : ∀ readers : List (Reader η), Ends limit holds (run readers (fresh handle policy limit))) :
    Throughout handle policy limit holds := by
  refine ⟨h, ?_⟩
  intro ω _ ws
  rcases Nat.lt_or_ge ((Scanner.fresh handle policy limit).calls ws).next.capacity Checked.memory
    with hmemory | hmemory
  · obtain ⟨counts, s, transcript, hcounts, hrun, hstands, hanswers, hevents⟩ :=
      run_calls ws (inRange_fresh handle policy limit) rfl (stands_fresh handle policy limit) hmemory
    have hholds := h (stretches ws counts)
    rw [hrun] at hholds
    exact Or.inr ⟨counts, s, transcript, hcounts, hrun, hstands, hanswers, hevents, hholds⟩
  · exact Or.inl hmemory

/-- **A scanner reads only when it must.**  For every policy, every handle that keeps the contract
    of reading and every limit, wherever a run of any number of steps has come to, also within a
    call:

    * the handle is turned to only with an empty window or when the policy has just asked for more
      than all of it, while the stream is open and nothing was answered for good, and is then read
      until a read is not interrupted;
    * it is shown just the free bytes behind the window, of which there is at least one;
    * after the end of the stream nothing is read any more;
    * after an answer that is no record or an error, every call says that there is nothing, and
      nothing is read, no policy is asked and the buffer stays as it is.

    So under a delimiter a record is given as soon as its delimiter is in the window. -/
theorem reads_only_when_wanting (handle : η) (limit : Nat) :
    (∀ (π : Type) [SplitPolicy π] (policy : π), Throughout handle policy limit Restrained) ∧
    ∀ delimiter : Bytes,
      Throughout handle (Delimiter.mk delimiter) limit fun s _ => s.Prompt delimiter := by
  constructor
  · intro π _ policy
    apply throughout_of_runs
    intro readers
    have hheld := run_keeps Held (fun hrange hs hstep => hs.step hrange hstep) readers
      (inRange_fresh handle policy limit) (held_fresh handle policy limit)
    exact hheld.mono fun s transcript hs => hs.2.restrained hs.1
  · intro delimiter
    apply throughout_of_runs
    intro readers
    have hfresh : (fresh handle (Delimiter.mk delimiter) limit).Vain delimiter :=
      ⟨rfl, fun _ => rfl⟩
    -- `Vain` needs the reason for the place, so the two are carried together
    have hvain := run_keeps (fun s transcript => s.Held transcript ∧ s.Vain delimiter)
      (fun hrange hs hstep => ⟨hs.1.step hrange hstep, hs.2.step hs.1 hrange hstep⟩) readers
      (inRange_fresh handle _ limit) ⟨held_fresh handle _ limit, hfresh⟩
    exact hvain.mono fun s transcript hs => hs.2.2.prompt hs.1

end RawScanner

end RecordFeed
