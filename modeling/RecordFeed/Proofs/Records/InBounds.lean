/-
  No index points out of the buffer, and no byte is lost.

  Whatever a policy decides and a handle leaves in the buffer, two things hold after every step of a
  `RawScanner`:

  * `InRange`   the window lies in the buffer and the buffer within the limit, so that every checked
                operation has a result (`act_fits`, `compact_spec`, `grow_spec`, `read_spec`);
  * `Ledger`    what the handle gave is what decisions consumed, followed by the window; the policy was
                shown just that window; and a decision for a record was answered as it deserves.

  The bridge between them is `Effect`, which lists all that a step can do to a window and a
  transcript.  `step_spec` says that a step has one of these effects or asks for more memory than
  there is, and `run_upright` carries it through a run by induction on the steps.
-/
import RecordFeed.Proofs.Records.RawScanner

namespace RecordFeed

/-! ## The account of a transcript

  The account is kept by the effect of a step, and not by the step itself.  So it holds for
  anything that has one of six effects, and a new branch in the loop would need a new effect or
  none at all. -/

/-- All that a step can do: how it goes on with a transcript, and what becomes of the window.
    Decisions and answers come in pairs, except for a decision to wait. -/
inductive Effect (window : Bytes) : List Entry → Bytes → Prop where
  | quiet : Effect window [] window
  | answered (answer : ScanAnswer) : Effect window [.answered answer] window
  | waits : Effect window [.shown window false .needMore] window
  | decided (atEof : Bool) (decision : Split) {rest : Bytes}
      (hrest : window = decision.consumes window ++ rest) :
      Effect window [.shown window atEof decision, .answered (decision.verdict window)] rest
  | took (room : Nat) (bytes : Bytes) : Effect window [.read room bytes] (window ++ bytes)
  | broke (room : Nat) (error : IoError) :
      Effect window [.read room [], .answered (.error (.io error))] window

/-- What a transcript says about the window of a scanner. -/
structure Ledger (window : Bytes) (transcript : List Entry) : Prop where
  /-- All bytes that were given were consumed, in their order, or are in the window. -/
  balance : Entry.delivered transcript = Entry.consumed transcript ++ window
  /-- So they were at each decision, and the policy was shown just the window. -/
  shown : ∀ {before after : List Entry} {seen : Bytes} {atEof : Bool} {decision : Split},
    transcript = before ++ .shown seen atEof decision :: after →
      Entry.delivered before = Entry.consumed before ++ seen
  /-- A decision for a record settled the call: with the record, where it lies in what is consumed
      and that in the window, and as an overrun otherwise. -/
  settled : ∀ {before after : List Entry} {seen : Bytes} {atEof : Bool} {advance start stop : Nat},
    transcript = before ++ .shown seen atEof (.token advance start stop) :: after →
      ∃ later, after = .answered ((Split.token advance start stop).verdict seen) :: later

theorem ledger_nil : Ledger [] [] where
  balance := rfl
  shown h := by simp at h
  settled h := by simp at h

/-- A place in a transcript that goes on lies in one of its halves. -/
theorem eq_append_cons_of_append_eq {α : Type} {front back before after : List α} {x : α}
    (h : front ++ back = before ++ x :: after) :
    (∃ middle, front = before ++ x :: middle ∧ after = middle ++ back) ∨
      ∃ middle, before = front ++ middle ∧ back = middle ++ x :: after := by
  rcases List.append_eq_append_iff.mp h with ⟨middle, hbefore, hback⟩ | ⟨middle, hfront, hrest⟩
  · exact Or.inr ⟨middle, hbefore, hback⟩
  · cases middle with
    | nil => exact Or.inr ⟨[], by simpa using hfront.symm, hrest.symm⟩
    | cons y middle =>
      obtain ⟨rfl, rfl⟩ := List.cons.inj hrest
      exact Or.inl ⟨middle, hfront, rfl⟩

variable {window rest : Bytes} {entries transcript : List Entry}

/-- A step turns to the policy first of all, with its window, and then answers as it decides.  By
    the effects; in each of them there is only one place where a decision could stand. -/
theorem Effect.eq_of_shown (h : Effect window entries rest) {middle after : List Entry}
    {seen : Bytes} {atEof : Bool} {decision : Split}
    (hentries : entries = middle ++ .shown seen atEof decision :: after) :
    middle = [] ∧ seen = window ∧
      (after = [.answered (decision.verdict window)] ∨ after = [] ∧ decision = .needMore) := by
  cases h with
  | quiet => simp at hentries
  | answered answer | took room bytes =>
    -- an answer or a read alone is no decision
    cases middle with
    | nil => simp at hentries
    | cons first middle => simp at hentries
  | waits =>
    cases middle with
    | nil =>
      obtain ⟨hfirst, rfl⟩ := List.cons.inj hentries
      obtain ⟨rfl, -, rfl⟩ := Entry.shown.inj hfirst
      exact ⟨rfl, rfl, Or.inr ⟨rfl, rfl⟩⟩
    | cons first middle => simp at hentries
  | decided atEof' decision' hrest =>
    -- the decision stands first, and what is behind it is the answer
    rcases middle with _ | ⟨first, _ | ⟨second, middle⟩⟩
    · obtain ⟨hfirst, rfl⟩ := List.cons.inj hentries
      obtain ⟨rfl, -, rfl⟩ := Entry.shown.inj hfirst
      exact ⟨rfl, rfl, Or.inl rfl⟩
    · simp at hentries
    · simp at hentries
  | broke room error =>
    rcases middle with _ | ⟨first, _ | ⟨second, middle⟩⟩ <;> simp at hentries

/-- Each effect keeps the balance.  What was given and is not consumed is in the window, before as
    after. -/
theorem Effect.balance (h : Effect window entries rest) :
    window ++ Entry.delivered entries = Entry.consumed entries ++ rest := by
  cases h with
  | quiet | answered | waits | broke => exact List.append_nil window
  | decided atEof decision hrest =>
    show window ++ [] = (decision.consumes window ++ []) ++ rest
    rw [List.append_nil, List.append_nil]
    exact hrest
  | took room bytes =>
    show window ++ (bytes ++ []) = window ++ bytes
    rw [List.append_nil]

/-- **One more step** keeps the account.  A place in the longer transcript is one of the old
    account, or it is in the step, and then it is its first entry. -/
theorem Ledger.after (h : Ledger window transcript) (heffect : Effect window entries rest) :
    Ledger rest (transcript ++ entries) := by
  constructor
  case balance =>
    rw [Entry.delivered_append, Entry.consumed_append, h.balance, List.append_assoc,
      heffect.balance, List.append_assoc]
  case shown =>
    intro before after seen atEof decision hplace
    rcases eq_append_cons_of_append_eq hplace with ⟨middle, hfront, -⟩ | ⟨middle, rfl, hback⟩
    · exact h.shown hfront
    · -- the new decision was made on the window that the old balance is about
      obtain ⟨rfl, rfl, -⟩ := heffect.eq_of_shown hback
      rw [List.append_nil]
      exact h.balance
  case settled =>
    intro before after seen atEof advance start stop hplace
    rcases eq_append_cons_of_append_eq hplace with ⟨middle, hfront, rfl⟩ | ⟨middle, rfl, hback⟩
    · -- an old decision was answered then and there
      obtain ⟨later, rfl⟩ := h.settled hfront
      exact ⟨later ++ entries, rfl⟩
    · obtain ⟨-, rfl, hafter | ⟨-, hdecision⟩⟩ := heffect.eq_of_shown hback
      · exact ⟨[], hafter⟩
      · simp at hdecision

/-! ## The buffer

  A step writes to few of the registers.  What it leaves alone need not be shown to be in range
  again, so most steps are dealt with by comparing four of them. -/

namespace RawScanner

variable {η π : Type} {s : RawScanner η π}

/-- The window lies in the buffer, and the buffer within the limit and the memory. -/
structure InRange (s : RawScanner η π) : Prop where
  start_le : s.start ≤ s.stop
  stop_le : s.stop ≤ s.buf.length
  length_le : s.buf.length ≤ s.limit
  length_lt : s.buf.length < Checked.memory

/-- There is no buffer yet, and it is in range. -/
theorem inRange_fresh (handle : η) (policy : π) (limit : Nat) :
    (fresh handle policy limit).InRange where
  start_le := Nat.le_refl 0
  stop_le := Nat.le_refl 0
  length_le := Nat.zero_le limit
  length_lt := by
    show 0 < Checked.memory
    decide

/-- The window has as many bytes as the indices are apart. -/
theorem InRange.length_window (h : s.InRange) : s.window.length = s.stop - s.start := by
  have hstop := h.stop_le
  simp only [window, List.length_drop, List.length_take]
  omega

/-- To take the window out of the buffer is a slice that has a result. -/
theorem InRange.slice_window (h : s.InRange) :
    Checked.slice s.buf s.start s.stop = .ok s.window := if_pos ⟨h.start_le, h.stop_le⟩

/-- An index into the buffer is an index. -/
theorem InRange.add_eq (h : s.InRange) {i j : Nat} (hle : i + j ≤ s.buf.length) :
    Checked.add i j = .ok (i + j) := by
  have hlt := h.length_lt
  refine if_pos ?_
  simp only [Checked.memory, Checked.indices] at hlt ⊢
  omega

/-- The buffer, the indices into it and the limit.  `InRange` and the window depend on nothing
    else. -/
def registers (s : RawScanner η π) : Bytes × Nat × Nat × Nat := (s.buf, s.start, s.stop, s.limit)

/-- A scanner that differs only elsewhere is in range as well.  Most steps are of this kind. -/
theorem InRange.of_registers {t : RawScanner η π} (h : s.InRange) (hsame : t.registers = s.registers) :
    t.InRange := by
  obtain ⟨hbuf, hstart, hstop, hlimit⟩ : t.buf = s.buf ∧ t.start = s.start ∧ t.stop = s.stop ∧
      t.limit = s.limit := by simpa [registers] using hsame
  constructor
  · rw [hstart, hstop]
    exact h.start_le
  · rw [hstop, hbuf]
    exact h.stop_le
  · rw [hbuf, hlimit]
    exact h.length_le
  · rw [hbuf]
    exact h.length_lt

/-- What a step keeps, and what it does. -/
structure Keeps (s t : RawScanner η π) (entries : List Entry) : Prop where
  inRange : t.InRange
  limit_eq : t.limit = s.limit
  effect : Effect s.window entries t.window

/-- A step that leaves the registers alone leaves the window alone. -/
theorem Keeps.of_registers {t : RawScanner η π} {entries : List Entry} (h : s.InRange)
    (hsame : t.registers = s.registers) (heffect : Effect s.window entries s.window) :
    Keeps s t entries := by
  refine ⟨h.of_registers hsame, ?_, ?_⟩
  · exact congrArg (fun registers => registers.2.2.2) hsame
  · have hwindow : t.window = s.window :=
      congrArg (fun registers => (registers.1.take registers.2.2.1).drop registers.2.1) hsame
    rw [hwindow]
    exact heffect

/-! ## Turning to the policy

  A policy may decide anything.  Positions that do not fit are an overrun, and positions that
  fit are indices into the buffer, because the window lies in it. -/

/-- **A record that lies in what is consumed**, and that in the window, is what the call answers.
    The window lies in the buffer, so the three sums are indices into it. -/
theorem act_fits (h : s.InRange) {advance start stop : Nat}
    (hfits : Split.Fits advance start stop s.window.length) :
    s.act s.window (.token advance start stop) =
      .ok ({ s with start := s.start + advance, point := .between },
        [.answered (.ok (some ((s.window.take stop).drop start)))]) := by
  obtain ⟨hadvance, hstart, hstop⟩ := hfits
  have hlength := h.length_window
  have hbegin := h.start_le
  have hend := h.stop_le
  have hfirst : Checked.add s.start advance = .ok (s.start + advance) := h.add_eq (by omega)
  have hfront : Checked.add s.start start = .ok (s.start + start) := h.add_eq (by omega)
  have hback : Checked.add s.start stop = .ok (s.start + stop) := h.add_eq (by omega)
  -- a slice of the window is a slice of the buffer
  have hrecord : Checked.slice s.buf (s.start + start) (s.start + stop) =
      .ok ((s.window.take stop).drop start) := by
    have hslice : (s.buf.take (s.start + stop)).drop (s.start + start) =
        (s.window.take stop).drop start := by
      rw [window, List.take_drop, List.take_take, List.drop_drop, Nat.min_eq_left (by omega)]
    rw [← hslice]
    exact if_pos ⟨by omega, by omega⟩
  -- the check of the positions is the negation of `Split.Fits`
  have hinside : ¬ (s.window.length < advance ∨ stop < start ∨ advance < stop) := by omega
  rw [act, if_neg hinside]
  dsimp only
  rw [hfirst, hfront, hback]
  show (Checked.slice s.buf (s.start + start) (s.start + stop)).bind _ = _
  rw [hrecord]
  rfl

/-- Any other one is an overrun, and nothing else happens. -/
theorem act_overrun {seen : Bytes} {advance start stop : Nat}
    (hover : ¬ Split.Fits advance start stop seen.length) :
    s.act seen (.token advance start stop) =
      .ok (s.settle (.error (.splitOverrun advance seen.length))) := by
  refine if_pos ?_
  rw [Split.Fits] at hover
  omega

/-- Acting on a decision: nothing but more bytes to wait for leaves a call open. -/
theorem act_spec (h : s.InRange) (decision : Split) :
    ∃ t entries, s.act s.window decision = .ok (t, entries) ∧
      Keeps s t (.shown s.window s.atEof decision :: entries) := by
  cases decision with
  | token advance start stop =>
    by_cases hfits : Split.Fits advance start stop s.window.length
    · refine ⟨_, _, act_fits h hfits, ⟨?_, h.stop_le, h.length_le, h.length_lt⟩, rfl, ?_⟩
      · -- the start moves on, but not past the end
        have hlength := h.length_window
        have hstart := h.start_le
        have hadvance := hfits.1
        show s.start + advance ≤ s.stop
        omega
      · have hverdict : (Split.token advance start stop).verdict s.window =
            .ok (some ((s.window.take stop).drop start)) := if_pos hfits
        rw [← hverdict]
        refine Effect.decided _ _ ?_
        have hconsumes : (Split.token advance start stop).consumes s.window =
            s.window.take advance := if_pos hfits
        have hrest : ({ s with start := s.start + advance, point := .between } :
            RawScanner η π).window = s.window.drop advance := by
          rw [window, window, List.drop_drop]
        rw [hconsumes, hrest, List.take_append_drop]
    · -- an overrun is answered as one, and its bytes stay in the window
      refine ⟨_, _, act_overrun hfits, Keeps.of_registers h rfl ?_⟩
      have hverdict : (Split.token advance start stop).verdict s.window =
          .error (.splitOverrun advance s.window.length) := if_neg hfits
      have hconsumes : (Split.token advance start stop).consumes s.window = [] := if_neg hfits
      rw [← hverdict]
      refine Effect.decided _ _ ?_
      rw [hconsumes]
      rfl
  | finished => exact ⟨_, _, rfl, Keeps.of_registers h rfl (Effect.decided _ .finished rfl)⟩
  | needMore =>
    cases hEof : s.atEof with
    | true =>
      have hact : s.act s.window .needMore = .ok (s.settle (.ok none)) := if_pos hEof
      exact ⟨_, _, hact, Keeps.of_registers h rfl (Effect.decided _ .needMore rfl)⟩
    | false =>
      have hact : s.act s.window .needMore = .ok ({ s with point := .compacting }, []) := by
        refine if_neg ?_
        rw [hEof]
        exact Bool.false_ne_true
      exact ⟨_, _, hact, Keeps.of_registers h rfl Effect.waits⟩

/-- Turning to the policy: it is shown the window, and what it decides is done. -/
theorem ask_eq [SplitPolicy π] (h : s.InRange) (hopen : s.done = false)
    (hshow : s.start < s.stop ∨ s.atEof = true) :
    s.ask =
      (act { s with policy := (SplitPolicy.split s.policy s.window s.atEof).2 } s.window
        (SplitPolicy.split s.policy s.window s.atEof).1).bind fun acted =>
          .ok (acted.1,
            .shown s.window s.atEof (SplitPolicy.split s.policy s.window s.atEof).1 :: acted.2) := by
  have hrunning : ¬ s.done = true := by
    rw [hopen]
    exact Bool.false_ne_true
  rw [ask, if_neg hrunning, if_pos hshow, h.slice_window]
  rfl

/-- Turning to the policy always has a result, whatever the policy decides. -/
theorem ask_spec [SplitPolicy π] (h : s.InRange) :
    ∃ t entries, s.ask = .ok (t, entries) ∧ Keeps s t entries := by
  cases hdone : s.done with
  | true =>
    exact ⟨_, _, if_pos hdone, Keeps.of_registers h rfl (Effect.answered _)⟩
  | false =>
    by_cases hshow : s.start < s.stop ∨ s.atEof = true
    · -- the policy moves on, which neither the window nor the indices see
      have hmoved : ({ s with policy := (SplitPolicy.split s.policy s.window s.atEof).2 } :
          RawScanner η π).InRange := h.of_registers rfl
      obtain ⟨t, entries, hact, hkeeps⟩ :=
        act_spec hmoved (SplitPolicy.split s.policy s.window s.atEof).1
      refine ⟨t, _, ?_, ⟨hkeeps.inRange, hkeeps.limit_eq, hkeeps.effect⟩⟩
      rw [ask_eq h hdone hshow]
      exact congrArg (Except.bind · _) hact
    · have hask : s.ask = .ok ({ s with point := .compacting }, []) := by
        rw [ask, hdone]
        exact if_neg hshow
      exact ⟨_, _, hask, Keeps.of_registers h rfl Effect.quiet⟩

/-! ## Making room

  Two steps: the window is moved to the front, and then the buffer is made longer.  The second
  is the only step that can be refused by the machine, and only for a buffer within the limit. -/

/-- What compacting does: the window lies at the front, or where it was. -/
structure Moved (s t : RawScanner η π) : Prop where
  same : t = { s with buf := t.buf, start := t.start, stop := t.stop, point := .growing }
  start_eq : t.start =
    if 0 < s.start ∧ (s.stop = s.buf.length ∨ s.buf.length / 2 < s.start) then 0 else s.start
  length_eq : t.buf.length = s.buf.length
  window_eq : t.window = s.window
  start_le : t.start ≤ t.stop
  stop_le : t.stop ≤ t.buf.length

/-- Moving the window always has a result: the copy is inside the buffer, and the difference of the
    indices is not below zero. -/
theorem compact_spec (h : s.InRange) : ∃ t, s.compact = .ok (t, []) ∧ Moved s t := by
  have hstart := h.start_le
  have hstop := h.stop_le
  have hlength := h.length_window
  by_cases hunused : 0 < s.start ∧ (s.stop = s.buf.length ∨ s.buf.length / 2 < s.start)
  · -- behind the copy there are the old bytes still, which nobody reads
    let t : RawScanner η π :=
      { s with
        buf := s.window ++ s.buf.drop (s.stop - s.start)
        stop := s.stop - s.start
        start := 0
        point := .growing }
    have hcopy : Checked.copyToFront s.buf s.start s.stop =
        .ok (s.window ++ s.buf.drop (s.stop - s.start)) := if_pos ⟨hstart, hstop⟩
    have hsub : Checked.sub s.stop s.start = .ok (s.stop - s.start) := if_pos hstart
    have hbuffer : t.buf.length = s.buf.length := by
      show (s.window ++ s.buf.drop (s.stop - s.start)).length = s.buf.length
      rw [List.length_append, List.length_drop, hlength]
      omega
    refine ⟨t, ?_, ⟨rfl, (if_pos hunused).symm, hbuffer, ?_, Nat.zero_le _, ?_⟩⟩
    · rw [compact, if_pos hunused, hcopy, hsub]
      rfl
    · show ((s.window ++ s.buf.drop (s.stop - s.start)).take (s.stop - s.start)).drop 0 = s.window
      rw [List.drop_zero, ← hlength, List.take_left]
    · rw [hbuffer]
      exact Nat.le_trans (Nat.sub_le _ _) hstop
  · exact ⟨_, if_neg hunused, ⟨rfl, (if_neg hunused).symm, rfl, rfl, hstart, hstop⟩⟩

/-- A window that was moved is in range again. -/
theorem Moved.inRange (h : s.InRange) {t : RawScanner η π} (hmoved : Moved s t) : t.InRange where
  start_le := hmoved.start_le
  stop_le := hmoved.stop_le
  length_le := by
    rw [hmoved.length_eq, hmoved.same]
    exact h.length_le
  length_lt := by
    rw [hmoved.length_eq]
    exact h.length_lt

/-- The length that a full buffer grows to. -/
def grown (s : RawScanner η π) : Nat := min (max (s.buf.length * 2) Scanner.firstCapacity) s.limit

theorem lt_grown (hlimit : s.buf.length < s.limit) : s.buf.length < s.grown := by
  simp only [grown, Scanner.firstCapacity]
  omega

/-- Where there is room already, nothing is allocated. -/
theorem grow_open (hroom : s.stop ≠ s.buf.length) : s.grow = .ok ({ s with point := .reading }, []) :=
  if_neg hroom

/-- At the limit there is no more room, for good. -/
theorem grow_full (hend : s.stop = s.buf.length) (hlimit : s.limit ≤ s.buf.length) :
    s.grow = .ok (s.settle (.error (.tokenTooLarge s.limit))) := by
  rw [grow, if_pos hend, if_pos hlimit]

/-- Otherwise a longer buffer is asked for.  To double the length is no overflow, since a buffer is
    shorter than half of the indices. -/
theorem grow_resize (h : s.InRange) (hend : s.stop = s.buf.length) (hlimit : s.buf.length < s.limit) :
    s.grow = (Checked.resize s.buf s.grown).bind fun buf =>
      .ok ({ s with buf, point := .reading }, []) := by
  have hdouble : Checked.mul s.buf.length 2 = .ok (s.buf.length * 2) := by
    have hlt := h.length_lt
    refine if_pos ?_
    simp only [Checked.memory, Checked.indices] at hlt ⊢
    omega
  rw [grow, if_pos hend, if_neg (Nat.not_le.mpr hlimit), hdouble]
  rfl

/-- More bytes of a buffer leave those it has where they are. -/
theorem resize_eq {bytes : Bytes} {length : Nat} (hle : bytes.length ≤ length)
    (hmemory : length < Checked.memory) :
    Checked.resize bytes length = .ok (bytes ++ List.replicate (length - bytes.length) 0) := by
  rw [Checked.resize, if_pos hmemory, List.take_of_length_le hle]

/-- Bytes behind the window do not matter to it. -/
theorem window_append (h : s.InRange) (more : Bytes) (point : Point) :
    ({ s with buf := s.buf ++ more, point } : RawScanner η π).window = s.window := by
  show ((s.buf ++ more).take s.stop).drop s.start = s.window
  rw [List.take_append_of_le_length h.stop_le]
  rfl

/-- Making room has a result, or asks for more memory than there is.  The second is possible only
    under a limit that allows for as much. -/
theorem grow_spec (h : s.InRange) :
    (∃ t entries, s.grow = .ok (t, entries) ∧ Keeps s t entries) ∨
      s.grow = .error .outOfMemory ∧ Checked.memory ≤ s.limit := by
  by_cases hend : s.stop = s.buf.length
  · by_cases hlimit : s.buf.length < s.limit
    · have hgrown := lt_grown hlimit
      -- the limit allows for the length that there is no memory for
      have hwithin : s.grown ≤ s.limit := Nat.min_le_right _ _
      rw [grow_resize h hend hlimit]
      by_cases hmemory : s.grown < Checked.memory
      · left
        rw [resize_eq (Nat.le_of_lt hgrown) hmemory]
        refine ⟨_, _, rfl, ⟨h.start_le, ?_, ?_, ?_⟩, rfl, ?_⟩
        · show s.stop ≤ (s.buf ++ _).length
          rw [List.length_append]
          exact Nat.le_trans h.stop_le (Nat.le_add_right _ _)
        · show (s.buf ++ _).length ≤ s.limit
          rw [List.length_append, List.length_replicate]
          omega
        · show (s.buf ++ _).length < Checked.memory
          rw [List.length_append, List.length_replicate]
          omega
        · rw [window_append h]
          exact Effect.quiet
      · right
        rw [Checked.resize, if_neg hmemory]
        exact ⟨rfl, by omega⟩
    · exact Or.inl ⟨_, _, grow_full hend (Nat.not_lt.mp hlimit),
        Keeps.of_registers h rfl (Effect.answered _)⟩
  · exact Or.inl ⟨_, _, grow_open hend, Keeps.of_registers h rfl Effect.quiet⟩

/-! ## Reading

  A handle is shown a part of the buffer and leaves there what it likes.  So the buffer changes
  behind the window before anybody knows how much of it was given. -/

/-- What a read leaves behind the window does not matter to it. -/
theorem leave_spec (h : s.InRange) {free : Bytes} (hfree : free.length = s.buf.length - s.stop) :
    (s.leave free).InRange ∧ (s.leave free).window = s.window ∧
      (s.leave free).buf.length = s.buf.length ∧ (s.leave free).buf.drop s.stop = free := by
  have hstop := h.stop_le
  have hfront : (s.buf.take s.stop).length = s.stop := by
    rw [List.length_take]
    omega
  have hlength : (s.buf.take s.stop ++ free).length = s.buf.length := by
    rw [List.length_append, hfront, hfree]
    omega
  refine ⟨⟨h.start_le, ?_, ?_, ?_⟩, ?_, hlength, ?_⟩
  · show s.stop ≤ (s.buf.take s.stop ++ free).length
    rw [hlength]
    exact hstop
  · show (s.buf.take s.stop ++ free).length ≤ s.limit
    rw [hlength]
    exact h.length_le
  · show (s.buf.take s.stop ++ free).length < Checked.memory
    rw [hlength]
    exact h.length_lt
  · show ((s.buf.take s.stop ++ free).take s.stop).drop s.start = s.window
    rw [List.take_append_of_le_length (Nat.le_of_eq hfront.symm), List.take_take, Nat.min_self]
    rfl
  · show (s.buf.take s.stop ++ free).drop s.stop = free
    exact List.drop_left' hfront

/-- Bytes that stand behind the window become part of it. -/
theorem receive_data (h : s.InRange) {bytes : Bytes} (hgiven : bytes <+: s.buf.drop s.stop)
    (room : Nat) (next : η) :
    ∃ t, s.receive room (.data bytes next) = .ok (t, [.read room bytes]) ∧
      t = { s with handle := next, stop := s.stop + bytes.length, point := .asking } ∧
      t.InRange ∧ t.window = s.window ++ bytes := by
  have hstart := h.start_le
  have hstop := h.stop_le
  have hfits := hgiven.length_le
  rw [List.length_drop] at hfits
  have hadd : Checked.add s.stop bytes.length = .ok (s.stop + bytes.length) := h.add_eq (by omega)
  refine ⟨_, ?_, rfl, ⟨?_, ?_, h.length_le, h.length_lt⟩, ?_⟩
  · rw [receive, hadd]
    rfl
  · exact Nat.le_trans hstart (Nat.le_add_right _ _)
  · show s.stop + bytes.length ≤ s.buf.length
    omega
  · -- the bytes stand behind the window already, so a longer window is the old one and they
    show (s.buf.take (s.stop + bytes.length)).drop s.start = (s.buf.take s.stop).drop s.start ++ bytes
    have hfront : s.start ≤ (s.buf.take s.stop).length := by
      rw [List.length_take]
      omega
    rw [List.take_add, ← List.prefix_iff_eq_take.mp hgiven, List.drop_append_of_le_length hfront]

/-- What a read gave has a place in the buffer, so the new end of the window is an index. -/
theorem receive_spec (h : s.InRange) (room : Nat) {outcome : ReadOutcome η}
    (hgiven : ∀ bytes next, outcome = .data bytes next → bytes <+: s.buf.drop s.stop) :
    ∃ t entries, s.receive room outcome = .ok (t, entries) ∧ Keeps s t entries := by
  cases outcome with
  | data bytes next =>
    obtain ⟨t, hreceive, ht, hrange, hwindow⟩ := receive_data h (hgiven bytes next rfl) room next
    refine ⟨t, _, hreceive, hrange, ?_, ?_⟩
    · rw [ht]
    · rw [hwindow]
      exact Effect.took room bytes
  | ended next | interrupted next =>
    have hnothing : Effect s.window [.read room []] (s.window ++ []) := Effect.took room []
    rw [List.append_nil] at hnothing
    exact ⟨_, _, rfl, Keeps.of_registers h rfl hnothing⟩
  | failed error next =>
    exact ⟨_, _, rfl, Keeps.of_registers h rfl (Effect.broke room error)⟩

/-- A read is shown the free bytes behind the window, and nothing else of the buffer is at its
    mercy. -/
theorem read_eq (h : s.InRange) (r : Reader η) :
    s.read r = (s.leave (r.read s.handle (s.buf.drop s.stop)).2).receive (s.buf.length - s.stop)
      (r.read s.handle (s.buf.drop s.stop)).1 := by
  have hfree : Checked.slice s.buf s.stop s.buf.length = .ok (s.buf.drop s.stop) := by
    rw [Checked.slice, if_pos ⟨h.stop_le, Nat.le_refl _⟩, List.take_length]
  rw [read, hfree, ← List.length_drop]
  rfl

/-- A read always has a result.  That the handle left as many bytes as it was shown is the contract
    of `Reader`. -/
theorem read_spec (h : s.InRange) (r : Reader η) :
    ∃ t entries, s.read r = .ok (t, entries) ∧ Keeps s t entries := by
  have hleft := r.length_read s.handle (s.buf.drop s.stop)
  rw [List.length_drop] at hleft
  -- first the handle writes behind the window, and only then is the outcome looked at
  obtain ⟨hrange, hwindow, -, hfree⟩ := leave_spec h hleft
  have hgiven : ∀ bytes next, (r.read s.handle (s.buf.drop s.stop)).1 = .data bytes next →
      bytes <+: (s.leave (r.read s.handle (s.buf.drop s.stop)).2).buf.drop s.stop := by
    intro bytes next hread
    rw [hfree]
    exact (r.data_read hread).2
  obtain ⟨t, entries, hreceive, hkeeps⟩ := receive_spec hrange (s.buf.length - s.stop) hgiven
  refine ⟨t, entries, (read_eq h r).trans hreceive, hkeeps.inRange, hkeeps.limit_eq, ?_⟩
  rw [← hwindow]
  exact hkeeps.effect

/-! ## Steps and runs

  What holds after one step from any scanner in range holds after all of them.  A run that was
  refused memory has no scanner at its end, and nothing is said of one. -/

/-- **A step** has one of the effects and leaves the buffer in range, unless it asks for more memory
    than there is.  One case for each place in the loop. -/
theorem step_spec [SplitPolicy π] (h : s.InRange) (r : Reader η) :
    (∃ t entries, s.step r = .ok (t, entries) ∧ Keeps s t entries) ∨
      s.step r = .error .outOfMemory ∧ Checked.memory ≤ s.limit := by
  unfold step
  cases s.point with
  | between =>
    exact Or.inl ⟨_, _, rfl, Keeps.of_registers h rfl Effect.quiet⟩
  | asking => exact Or.inl (ask_spec h)
  | compacting =>
    obtain ⟨t, hcompact, hmoved⟩ := compact_spec h
    refine Or.inl ⟨t, [], hcompact, hmoved.inRange h, ?_, ?_⟩
    · rw [hmoved.same]
    · rw [hmoved.window_eq]
      exact Effect.quiet
  | growing => exact grow_spec h
  | reading => exact Or.inl (read_spec h r)

/-- What is claimed of a run: the buffer in range and a true account; or no memory, and then because
    the limit allows for more than there is. -/
def Upright (limit : Nat) (before : List Entry) : Except Trap (RawStep η π) → Prop
  | .ok (s, transcript) => s.InRange ∧ s.limit = limit ∧ Ledger s.window (before ++ transcript)
  | .error trap => trap = .outOfMemory ∧ Checked.memory ≤ limit

/-- **A run of any length**, from any scanner in range: by induction on the steps, each of which
    keeps the account of all that came before it. -/
theorem run_upright [SplitPolicy π] (readers : List (Reader η)) (h : s.InRange)
    {before : List Entry} (hledger : Ledger s.window before) :
    Upright s.limit before (run readers s) := by
  induction readers generalizing s before with
  | nil =>
    refine ⟨h, rfl, ?_⟩
    rw [List.append_nil]
    exact hledger
  | cons r later ih =>
    -- a step without a result ends the run, and there is nothing after it to speak of
    rcases step_spec h r with ⟨t, entries, hstep, hkeeps⟩ | ⟨hstep, hlimit⟩
    · have hrest := ih hkeeps.inRange (hledger.after hkeeps.effect)
      rw [hkeeps.limit_eq] at hrest
      rw [run, hstep]
      show Upright s.limit before ((run later t).bind _)
      cases hlater : run later t with
      | error trap =>
        rw [hlater] at hrest
        exact hrest
      | ok rest =>
        rw [hlater] at hrest
        obtain ⟨hrange, hlimit, haccount⟩ := hrest
        refine ⟨hrange, hlimit, ?_⟩
        rw [← List.append_assoc]
        exact haccount
    · rw [run, hstep]
      exact ⟨rfl, hlimit⟩

end RawScanner

end RecordFeed
