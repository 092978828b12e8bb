/-
  The scanner and its buffer.

  A `RawScanner` stands for a `Scanner` when both agree on everything that the scanner knows, the
  window among it (`Stands`).  Then a call of the scanner is a number of steps of the raw one, with
  the same answer and the same events, and both stand for each other again:

  1. `ask_mirrors`               turning to the policy is one step;
  2. `refill_mirrors`            making room is two (`compact_stands`, `grow_stands`), and reading as many
                                 as there are reads (`pull_mirrors`);
  3. `call_mirrors`, `run_calls` so a call is a run, by induction on the rounds of its loop, and
                                 calls are one, by induction on the calls.

  With the account of all runs this is `runs_upright`: every run keeps the buffer in range and the
  account true, and what the scanner does are such runs.
-/
import RecordFeed.Proofs.Records.Conduct
import RecordFeed.Proofs.Records.InBounds

namespace RecordFeed

/-- The same step, with events that came before it. -/
def ScanStep.after {η π : Type} (events : List Event) : ScanStep η π → ScanStep η π
  | .settled reply => .settled (reply.after events)
  | .onward t later => .onward t (events ++ later)

namespace Scanner

variable {ω η π : Type} [ByteSource ω η]

/-! ## Calls -/

/-- One call after another, each in its surroundings. -/
def calls [SplitPolicy π] : List ω → Scanner η π → Reply (Scanner η π) (List ScanAnswer)
  | [], s => { answer := [], next := s }
  | w :: later, s =>
    let first := s.nextToken w
    let rest := calls later first.next
    { answer := first.answer :: rest.answer, next := rest.next, events := first.events ++ rest.events }

/-- What a scanner makes of a read that is not an interruption. -/
def absorb (s : Scanner η π) (events : List Event) : Pulled η → ScanStep η π
  | .data bytes next => .onward { s with handle := next, window := s.window.append bytes } events
  | .ended next => .onward { s with handle := next, atEof := true } events
  | .failed error next =>
    .settled { answer := .error (.io error), next := { s with handle := next, done := true }, events }

/-- Calls leave what each of them does, among it a buffer that never shrinks. -/
theorem calls_leaves [SplitPolicy π] (ws : List ω) (s : Scanner η π) :
    s.Leaves (s.calls ws).next (s.calls ws).events := by
  induction ws generalizing s with
  | nil => exact ⟨rfl, Nat.le_refl _, by simp [calls]⟩
  | cons w later ih => exact (nextToken_leaves w s).trans (ih (s.nextToken w).next)

theorem absorb_capacity (s : Scanner η π) (events : List Event) (pulled : Pulled η) :
    (s.absorb events pulled).next.capacity = s.capacity := by
  cases pulled <;> rfl

/-- Making room and reading are two things one after the other, once there is room.  The raw scanner
    takes them as separate steps. -/
theorem refill_absorb (w : ω) {s t : Scanner η π} (h : s.compact.grow? = some t) :
    s.refill w = t.absorb
      (List.replicate (pull w (t.capacity - t.stop) t.handle).2 (.offered (t.capacity - t.stop)))
      (pull w (t.capacity - t.stop) t.handle).1 := by
  rw [refill, h]
  dsimp only
  cases (pull w (t.capacity - t.stop) t.handle).1 <;> rfl

end Scanner

namespace RawScanner

variable {ω η π : Type}

/-! ## Runs of several steps

  One step of the scanner is several of the raw one, and how many depends on the handle.  So a
  number of steps is claimed to exist, and the runs between two calls are put together from
  them. -/

/-- Some number of steps in the same surroundings. -/
def Reaches [SplitPolicy π] (r : Reader η) (s : RawScanner η π) (entries : List Entry)
    (t : RawScanner η π) : Prop := ∃ n, run (List.replicate n r) s = .ok (t, entries)

section Runs

variable [SplitPolicy π] {r : Reader η} {s t u : RawScanner η π} {before after : List Entry}

/-- A run goes on where another one stopped.  By induction on the steps of the first one. -/
theorem run_append {front back : List (Reader η)} (h : run front s = .ok (t, before))
    (h' : run back t = .ok (u, after)) : run (front ++ back) s = .ok (u, before ++ after) := by
  induction front generalizing s before with
  | nil =>
    obtain ⟨rfl, rfl⟩ := Prod.mk.inj (Except.ok.inj h)
    exact h'
  | cons r front ih =>
    rw [run] at h
    cases hstep : s.step r with
    | error trap =>
      rw [hstep] at h
      exact absurd h (by simp [bind, Except.bind])
    | ok first =>
      rw [hstep] at h
      have h : (run front first.1).bind (fun rest => .ok (rest.1, first.2 ++ rest.2)) =
        .ok (t, before) := h
      cases hrest : run front first.1 with
      | error trap =>
        rw [hrest] at h
        exact absurd h (by simp [Except.bind])
      | ok rest =>
        rw [hrest] at h
        -- the first run had a result, so each of its steps had one
        obtain ⟨rfl, rfl⟩ := Prod.mk.inj (Except.ok.inj h)
        rw [List.cons_append, run, hstep]
        show (run (front ++ back) first.1).bind _ = _
        rw [ih hrest, List.append_assoc]
        rfl

theorem reaches_step (h : s.step r = .ok (t, before)) : Reaches r s before t := by
  refine ⟨1, ?_⟩
  show (s.step r).bind _ = _
  rw [h]
  show Except.ok (t, before ++ []) = _
  rw [List.append_nil]

/-- Runs in the same surroundings follow one another. -/
theorem Reaches.trans (h : Reaches r s before t) (h' : Reaches r t after u) :
    Reaches r s (before ++ after) u := by
  obtain ⟨n, hn⟩ := h
  obtain ⟨m, hm⟩ := h'
  refine ⟨n + m, ?_⟩
  rw [← List.replicate_append_replicate]
  exact run_append hn hm

/-- A step that has a result keeps the buffer in range.  The other case of `step_spec` has no
    result. -/
theorem InRange.of_step (h : s.InRange) (hstep : s.step r = .ok (t, before)) : Keeps s t before := by
  rcases step_spec h r with ⟨t', entries, hstep', hkeeps⟩ | ⟨hstep', -⟩
  · obtain ⟨rfl, rfl⟩ := Prod.mk.inj (Except.ok.inj (hstep.symm.trans hstep'))
    exact hkeeps
  · rw [hstep] at hstep'
    simp at hstep'

end Runs

/-! ## Standing for a scanner

  The scanner has the bytes of its window, and the raw one has indices into a buffer.  They
  agree on all numbers that decide about anything: where the window is, how long it is, and how
  many bytes are allocated. -/

/-- All that a scanner knows.  The raw scanner has its place in the loop besides, and bytes in the
    buffer that are not in the window. -/
structure Stands (s : RawScanner η π) (t : Scanner η π) : Prop where
  handle_eq : s.handle = t.handle
  policy_eq : s.policy = t.policy
  limit_eq : s.limit = t.limit
  start_eq : s.start = t.start
  length_eq : s.buf.length = t.capacity
  window_eq : s.window = t.window.toList
  atEof_eq : s.atEof = t.atEof
  done_eq : s.done = t.done

theorem stands_fresh (handle : η) (policy : π) (limit : Nat) :
    (fresh handle policy limit).Stands (Scanner.fresh handle policy limit) :=
  ⟨rfl, rfl, rfl, rfl, rfl, rfl, rfl, rfl⟩

variable {s : RawScanner η π} {t : Scanner η π}

theorem Stands.size_eq (hst : s.Stands t) : s.window.length = t.window.size := by
  rw [hst.window_eq, Buffered.length_toList]

/-- The window ends at the same place. -/
theorem Stands.stop_eq (hst : s.Stands t) (h : s.InRange) : s.stop = t.stop := by
  have hlength := h.length_window
  have hstart := h.start_le
  rw [hst.size_eq] at hlength
  rw [Scanner.stop, ← hst.start_eq]
  omega

/-- What the raw scanner did is what a step of the scanner does: it settled the call with the same
    answer, or it goes on from a certain point; and the events are the same.  What is to be said
    about a step of the scanner is said in this form, so that steps can be put together
    (`Mirrors.after`). -/
def Mirrors (onward : Point) (s : RawScanner η π) (entries : List Entry) : ScanStep η π → Prop
  | .settled reply =>
    s.point = .between ∧ s.Stands reply.next ∧ Entry.answers entries = [reply.answer] ∧
      Entry.events entries = reply.events
  | .onward t events =>
    s.point = onward ∧ s.Stands t ∧ Entry.answers entries = [] ∧ Entry.events entries = events

/-- Steps that answered nothing may come before. -/
theorem Mirrors.after {onward : Point} {first entries : List Entry} {step : ScanStep η π}
    (h : Mirrors onward s entries step) (hanswers : Entry.answers first = []) :
    Mirrors onward s (first ++ entries) (step.after (Entry.events first)) := by
  cases step with
  | settled reply =>
    obtain ⟨hpoint, hst, hanswer, hevents⟩ := h
    refine ⟨hpoint, hst, ?_, ?_⟩
    · rw [Entry.answers_append, hanswers, hanswer]
      rfl
    · rw [Entry.events_append, hevents]
      rfl
  | onward t events =>
    obtain ⟨hpoint, hst, hanswer, hevents⟩ := h
    refine ⟨hpoint, hst, ?_, ?_⟩
    · rw [Entry.answers_append, hanswers, hanswer]
      rfl
    · rw [Entry.events_append, hevents]

/-! ## Turning to the policy

  Both put the question under the same condition, which each of them reads off its own
  registers.  The decision is the same, since the window is. -/

/-- What a decision does is the same on both sides.  The check of the positions is about the length
    of the window, on which they agree. -/
theorem act_mirrors (h : s.InRange) (hst : s.Stands t) (decision : Split) :
    ∃ u entries, s.act s.window decision = .ok (u, entries) ∧
      Mirrors .compacting u (.shown s.window s.atEof decision :: entries)
        (t.act [.consulted t.window.size t.atEof] decision) := by
  -- whatever is answered, the event is the question that was put
  have hevents : ∀ answer : ScanAnswer,
      Entry.events [.shown s.window s.atEof decision, .answered answer] =
        [.consulted t.window.size t.atEof] := by
    intro answer
    rw [← hst.size_eq, ← hst.atEof_eq]
    rfl
  have hdone : ∀ answer : ScanAnswer,
      (s.settle answer).1.Stands { t with done := true } := by
    intro answer
    exact { hst with done_eq := rfl }
  cases decision with
  | token advance start stop =>
    by_cases hfits : Split.Fits advance start stop s.window.length
    · have hact : t.act [.consulted t.window.size t.atEof] (.token advance start stop) = _ :=
        if_pos (hst.size_eq ▸ hfits)
      refine ⟨_, _, act_fits h hfits, ?_⟩
      rw [hact]
      refine ⟨rfl, ?_, ?_, hevents _⟩
      · -- the start is counted on the one side, and the window is shorter on the other
        refine { hst with start_eq := ?_, window_eq := ?_ }
        · show s.start + advance = t.start + advance
          rw [hst.start_eq]
        · show (s.buf.take s.stop).drop (s.start + advance) = (t.window.drop advance).toList
          rw [Buffered.toList_drop, ← hst.window_eq, window, List.drop_drop]
      · rw [Buffered.slice_eq, ← hst.window_eq]
        rfl
    · have hact : t.act [.consulted t.window.size t.atEof] (.token advance start stop) = _ :=
        if_neg (hst.size_eq ▸ hfits)
      refine ⟨_, _, act_overrun hfits, ?_⟩
      rw [hact]
      refine ⟨rfl, hdone (.error (.splitOverrun advance s.window.length)), ?_, hevents _⟩
      rw [← hst.size_eq]
      rfl
  | finished => exact ⟨_, _, rfl, rfl, hdone (.ok none), rfl, hevents _⟩
  | needMore =>
    by_cases hEof : s.atEof = true
    · have hraw : s.act s.window .needMore = .ok (s.settle (.ok none)) := if_pos hEof
      have hact : t.act [.consulted t.window.size t.atEof] .needMore = _ :=
        if_pos (hst.atEof_eq ▸ hEof)
      refine ⟨_, _, hraw, ?_⟩
      rw [hact]
      exact ⟨rfl, hdone (.ok none), rfl, hevents _⟩
    · have hraw : s.act s.window .needMore = .ok ({ s with point := .compacting }, []) :=
        if_neg hEof
      have hact : t.act [.consulted t.window.size t.atEof] .needMore =
          .onward t [.consulted t.window.size t.atEof] := if_neg (hst.atEof_eq ▸ hEof)
      refine ⟨_, _, hraw, ?_⟩
      rw [hact]
      refine ⟨rfl, { hst with }, rfl, ?_⟩
      rw [← hst.size_eq, ← hst.atEof_eq]
      rfl

/-- Turning to the policy is one step of the raw scanner, with the same decision. -/
theorem ask_mirrors [SplitPolicy π] (h : s.InRange) (hst : s.Stands t) :
    ∃ u entries, s.ask = .ok (u, entries) ∧ Mirrors .compacting u entries t.consult := by
  cases hdone : s.done with
  | true =>
    have hconsult : t.consult = _ := if_pos (hst.done_eq ▸ hdone)
    refine ⟨_, _, if_pos hdone, ?_⟩
    rw [hconsult]
    refine ⟨rfl, { hst with done_eq := ?_ }, rfl, rfl⟩
    rw [← hst.done_eq, hdone]
  | false =>
    have hopen : ¬ t.done = true := by
      rw [← hst.done_eq, hdone]
      exact Bool.false_ne_true
    have hlength := h.length_window
    rw [hst.size_eq] at hlength
    by_cases hshow : s.start < s.stop ∨ s.atEof = true
    · -- the window is shown under the same condition, said in two ways
      have hsome : ¬ (t.window.isEmpty && !t.atEof) = true := by
        rw [← hst.atEof_eq, Buffered.isEmpty]
        rcases hshow with hlt | hEof
        · rw [beq_eq_false_iff_ne.mpr (by omega)]
          exact Bool.false_ne_true
        · rw [hEof]
          simp
      -- both have turned to the policy, and the policy has moved on
      let asked : RawScanner η π :=
        { s with policy := (SplitPolicy.split s.policy s.window s.atEof).2 }
      let seen : Scanner η π :=
        { t with
          policy := (SplitPolicy.splitBuffered t.policy t.window t.atEof).1.2
          window := (SplitPolicy.splitBuffered t.policy t.window t.atEof).2 }
      have hsame : (SplitPolicy.splitBuffered t.policy t.window t.atEof).1 =
          SplitPolicy.split s.policy s.window s.atEof := by
        rw [SplitPolicy.splitBuffered_decision, hst.policy_eq, hst.window_eq, hst.atEof_eq]
      have hbytes := SplitPolicy.splitBuffered_toList t.policy t.window t.atEof
      have hrange : asked.InRange := h.of_registers rfl
      have hstands : asked.Stands seen := by
        refine { hst with policy_eq := ?_, window_eq := ?_ }
        · show _ = (SplitPolicy.splitBuffered t.policy t.window t.atEof).1.2
          rw [hsame]
        · exact hst.window_eq.trans hbytes.symm
      have hsize : seen.window.size = t.window.size := Buffered.size_congr hbytes
      obtain ⟨u, entries, hact, hmirrors⟩ :=
        act_mirrors hrange hstands (SplitPolicy.split s.policy s.window s.atEof).1
      have hconsult : t.consult = seen.act [.consulted seen.window.size seen.atEof]
          (SplitPolicy.split s.policy s.window s.atEof).1 := by
        rw [Scanner.consult, if_neg hopen, if_neg hsome, hsize, ← hsame]
      refine ⟨u,
        .shown s.window s.atEof (SplitPolicy.split s.policy s.window s.atEof).1 :: entries, ?_, ?_⟩
      · rw [ask_eq h hdone hshow]
        exact congrArg (Except.bind · _) hact
      · rw [hconsult]
        exact hmirrors
    · have hnone : (t.window.isEmpty && !t.atEof) = true := by
        rw [← hst.atEof_eq, Buffered.isEmpty, Bool.and_eq_true]
        constructor
        · exact beq_iff_eq.mpr (by omega)
        · simpa using fun hEof => hshow (Or.inr hEof)
      have hask : s.ask = .ok ({ s with point := .compacting }, []) := by
        rw [ask, hdone]
        exact if_neg hshow
      have hconsult : t.consult = .onward t [] := by
        rw [Scanner.consult, if_neg hopen, if_pos hnone]
      refine ⟨_, _, hask, ?_⟩
      rw [hconsult]
      exact ⟨rfl, { hst with }, rfl, rfl⟩

/-! ## Making room and reading

  Here the two differ most.  The scanner makes room and reads until a read is not interrupted,
  all in one step; the raw one stops after each of these. -/

/-- Both move the window under the same condition, to the same place. -/
theorem compact_stands (h : s.InRange) (hst : s.Stands t) :
    ∃ u, s.compact = .ok (u, []) ∧ u.point = .growing ∧ u.Stands t.compact := by
  obtain ⟨u, hcompact, hmoved⟩ := compact_spec h
  refine ⟨u, hcompact, ?_, ?_⟩
  · rw [hmoved.same]
  · have hstart : u.start = t.compact.start := by
      rw [hmoved.start_eq, hst.stop_eq h, hst.length_eq, hst.start_eq, Scanner.compact]
      split <;> rfl
    have hsame := hmoved.same
    refine ⟨?_, ?_, ?_, hstart, ?_, ?_, ?_, ?_⟩
    · rw [Scanner.compact_handle, ← hst.handle_eq, hsame]
    · rw [Scanner.compact_policy, ← hst.policy_eq, hsame]
    · rw [Scanner.compact_limit, ← hst.limit_eq, hsame]
    · rw [Scanner.compact_capacity, ← hst.length_eq, hmoved.length_eq]
    · rw [Scanner.compact_window, ← hst.window_eq, hmoved.window_eq]
    · rw [Scanner.compact_atEof, ← hst.atEof_eq, hsame]
    · rw [Scanner.compact_done, ← hst.done_eq, hsame]

/-- There is room for just what the scanner has room for, as far as there is memory.  The scanner
    counts its allocation and the raw one makes it; here the two numbers are the same. -/
theorem grow_stands (h : s.InRange) (hst : s.Stands t)
    (hmemory : ∀ v, t.grow? = some v → v.capacity < Checked.memory) :
    (t.grow? = none ∧ s.grow = .ok (s.settle (.error (.tokenTooLarge s.limit)))) ∨
      ∃ u v, t.grow? = some v ∧ s.grow = .ok (u, []) ∧ u.point = .reading ∧ u.Stands v := by
  have hstop := hst.stop_eq h
  by_cases hend : s.stop = s.buf.length
  · -- the window ends at the end of the buffer, and the buffer is not at its limit
    have hend' : t.stop = t.capacity := by rw [← hstop, hend, hst.length_eq]
    by_cases hlimit : s.buf.length < s.limit
    · have hlimit' : ¬ t.limit ≤ t.capacity := by
        rw [← hst.limit_eq, ← hst.length_eq]
        omega
      have hgrown := lt_grown hlimit
      have hsame : s.grown = min (max (t.capacity * 2) Scanner.firstCapacity) t.limit := by
        rw [grown, hst.length_eq, hst.limit_eq]
      have hgrow : t.grow? = some { t with capacity := s.grown } := by
        rw [Scanner.grow?, if_pos hend', if_neg hlimit', hsame]
      have hresize := resize_eq (Nat.le_of_lt hgrown) (hmemory _ hgrow)
      right
      refine ⟨{ s with
            buf := s.buf ++ List.replicate (s.grown - s.buf.length) 0
            point := .reading },
        { t with capacity := s.grown }, hgrow, ?_, rfl,
        { hst with length_eq := ?_, window_eq := ?_ }⟩
      · rw [grow_resize h hend hlimit, hresize]
        rfl
      · show (s.buf ++ _).length = s.grown
        rw [List.length_append, List.length_replicate]
        omega
      · exact (window_append h _ _).trans hst.window_eq
    · have hlimit' : t.limit ≤ t.capacity := by
        rw [← hst.limit_eq, ← hst.length_eq]
        omega
      left
      refine ⟨?_, grow_full hend (Nat.not_lt.mp hlimit)⟩
      rw [Scanner.grow?, if_pos hend', if_pos hlimit']
  · have hend' : t.stop ≠ t.capacity := by
      rw [← hstop, ← hst.length_eq]
      exact hend
    right
    exact ⟨_, t, if_neg hend', grow_open hend, rfl, { hst with }⟩

/-- What a read leaves behind the window does not matter. -/
theorem leave_stands (h : s.InRange) (hst : s.Stands t) {free : Bytes}
    (hfree : free.length = s.buf.length - s.stop) : (s.leave free).Stands t := by
  obtain ⟨-, hwindow, hlength, -⟩ := leave_spec h hfree
  exact { hst with length_eq := hlength.trans hst.length_eq, window_eq := hwindow.trans hst.window_eq }

variable [ByteSource ω η] [SplitPolicy π] {w : ω}

/-- A step that reads goes on with the bytes in the buffer.  `left` is the raw scanner with what the
    handle wrote, before the outcome is looked at. -/
theorem step_reading (h : s.InRange) (hpoint : s.point = .reading) (hst : s.Stands t) :
    ∃ left : RawScanner η π, left.InRange ∧ left.point = .reading ∧ left.Stands t ∧
      (∀ bytes next, ByteSource.read w t.handle (t.capacity - t.stop) = .data bytes next →
        bytes <+: left.buf.drop left.stop) ∧
      s.step (.ofSource w) = left.receive (t.capacity - t.stop)
        (ByteSource.read w t.handle (t.capacity - t.stop)) := by
  have hroom : s.buf.length - s.stop = t.capacity - t.stop := by
    rw [hst.length_eq, hst.stop_eq h]
  have hread : ((Reader.ofSource w).read s.handle (s.buf.drop s.stop)).1 =
      ByteSource.read w t.handle (t.capacity - t.stop) := by
    show ByteSource.read w s.handle (s.buf.drop s.stop).length = _
    rw [List.length_drop, hroom, hst.handle_eq]
  have hleft := (Reader.ofSource w).length_read s.handle (s.buf.drop s.stop)
  rw [List.length_drop] at hleft
  obtain ⟨hrange, -, -, hfree⟩ := leave_spec h hleft
  refine ⟨_, hrange, hpoint, leave_stands h hst hleft, ?_, ?_⟩
  · intro bytes next hdata
    show bytes <+: (s.leave _).buf.drop s.stop
    rw [hfree]
    exact ((Reader.ofSource w).data_read (hread.trans hdata)).2
  · rw [step, hpoint, ← hread, ← hroom]
    exact read_eq h _

/-- **Reading until a read is not interrupted** is one step for each read.  By induction on the
    interruptions. -/
theorem pull_mirrors {room : Nat} {handle : η} (h : s.InRange) (hpoint : s.point = .reading)
    (hst : s.Stands t) (hroom : t.capacity - t.stop = room) (hhandle : t.handle = handle) :
    ∃ u entries, Reaches (.ofSource w) s entries u ∧ u.InRange ∧
      Mirrors .asking u entries
        (t.absorb (List.replicate (Scanner.pull w room handle).2 (.offered room))
          (Scanner.pull w room handle).1) := by
  obtain ⟨left, hrange, hleft, hstands, hgiven, hstep⟩ := step_reading (w := w) h hpoint hst
  rw [hroom, hhandle] at hgiven hstep
  fun_induction Scanner.pull w room handle generalizing s t left with
  | case1 handle bytes next hread =>
    rw [hread] at hgiven hstep
    obtain ⟨u, hreceive, rfl, hnext, hwindow⟩ :=
      receive_data hrange (hgiven bytes next rfl) room next
    rw [hreceive] at hstep
    refine ⟨_, _, reaches_step hstep, hnext, rfl,
      { hstands with handle_eq := rfl, window_eq := ?_ }, rfl, rfl⟩
    rw [hwindow, hstands.window_eq, Buffered.toList_append]
  | case2 handle next hread =>
    rw [hread] at hstep
    exact ⟨_, _, reaches_step hstep, (h.of_step hstep).inRange, rfl,
      { hstands with handle_eq := rfl, atEof_eq := rfl }, rfl, rfl⟩
  | case3 handle error next hread =>
    rw [hread] at hstep
    exact ⟨_, _, reaches_step hstep, (h.of_step hstep).inRange, rfl,
      { hstands with handle_eq := rfl, done_eq := rfl }, rfl, rfl⟩
  | case4 handle next hread ih =>
    rw [hread] at hstep
    have hagain : ({ left with handle := next } : RawScanner η π).InRange := (h.of_step hstep).inRange
    have hnext : ({ left with handle := next } : RawScanner η π).Stands { t with handle := next } :=
      { hstands with handle_eq := rfl }
    -- interrupted: the next read starts from where this one left the buffer
    obtain ⟨left', hrange', hleft', hstands', hgiven', hstep'⟩ :=
      step_reading (w := w) hagain hleft hnext
    obtain ⟨u, entries, hreaches, hu, hmirrors⟩ :=
      ih hagain hleft hnext hroom rfl left' hrange' hleft' hstands' (hroom ▸ hgiven')
        (hroom ▸ hstep')
    refine ⟨u, _, (reaches_step hstep).trans hreaches, hu, ?_⟩
    -- the events are those of one more read
    have hmore := hmirrors.after (show Entry.answers [.read room []] = [] from rfl)
    cases hpulled : (Scanner.pull w room next).1 <;> rw [hpulled] at hmore <;> exact hmore

/-- **Making room and reading once** is two steps, and one for each read. -/
theorem refill_mirrors (h : s.InRange) (hpoint : s.point = .compacting) (hst : s.Stands t)
    (hmemory : (t.refill w).next.capacity < Checked.memory) :
    ∃ u entries, Reaches (.ofSource w) s entries u ∧ u.InRange ∧
      Mirrors .asking u entries (t.refill w) := by
  obtain ⟨moved, hcompact, hgrowing, hmoved⟩ := compact_stands h hst
  have hfirst : s.step (.ofSource w) = .ok (moved, []) := by
    rw [step, hpoint]
    exact hcompact
  have hrange := (h.of_step hfirst).inRange
  have hlimit : moved.limit = t.limit := by rw [hmoved.limit_eq, Scanner.compact_limit]
  -- a read allocates nothing, so what is allocated after it was allocated before
  have hallocated : ∀ v, t.compact.grow? = some v → v.capacity < Checked.memory := by
    intro v hgrow
    rw [Scanner.refill_absorb w hgrow, Scanner.absorb_capacity] at hmemory
    exact hmemory
  rcases grow_stands hrange hmoved hallocated with
    ⟨hnone, hgrow⟩ | ⟨grown, v, hsome, hgrow, hreading, hgrown⟩
  · have hsecond : moved.step (.ofSource w) = .ok (moved.settle (.error (.tokenTooLarge t.limit))) := by
      rw [step, hgrowing, ← hlimit]
      exact hgrow
    -- at the limit two steps are enough
    have hrefill : t.refill w = .settled
        { answer := .error (.tokenTooLarge t.limit), next := { t.compact with done := true } } := by
      rw [Scanner.refill, hnone]
    refine ⟨_, _, (reaches_step hfirst).trans (reaches_step hsecond),
      (hrange.of_step hsecond).inRange, ?_⟩
    rw [hrefill]
    exact ⟨rfl, { hmoved with done_eq := rfl }, rfl, rfl⟩
  · have hsecond : moved.step (.ofSource w) = .ok (grown, []) := by
      rw [step, hgrowing]
      exact hgrow
    obtain ⟨u, entries, hreaches, hu, hmirrors⟩ :=
      pull_mirrors (w := w) (hrange.of_step hsecond).inRange hreading hgrown rfl rfl
    refine ⟨u, _, ((reaches_step hfirst).trans (reaches_step hsecond)).trans hreaches, hu, ?_⟩
    rw [Scanner.refill_absorb w hsome]
    exact hmirrors

/-! ## Calls -/

/-- A round of the loop that does not settle the call when it turns to the policy. -/
theorem round_mirrors {v : Scanner η π} {before : List Event} (h : s.InRange)
    (hpoint : s.point = .asking) (hst : s.Stands t) (hconsult : t.consult = .onward v before)
    (hmemory : (v.refill w).next.capacity < Checked.memory) :
    ∃ u entries, Reaches (.ofSource w) s entries u ∧ u.InRange ∧
      Mirrors .asking u entries ((v.refill w).after before) := by
  obtain ⟨asked, entries, hask, hmirrors⟩ := ask_mirrors h hst
  rw [hconsult] at hmirrors
  obtain ⟨hcompacting, hstands, hanswers, rfl⟩ := hmirrors
  have hstep : s.step (.ofSource w) = .ok (asked, entries) := by
    rw [step, hpoint]
    exact hask
  obtain ⟨u, after, hreaches, hu, hrefill⟩ :=
    refill_mirrors (h.of_step hstep).inRange hcompacting hstands hmemory
  exact ⟨u, _, (reaches_step hstep).trans hreaches, hu, hrefill.after hanswers⟩

/-- **A call is a run**, by induction on the rounds of its loop. -/
theorem call_mirrors (h : s.InRange) (hpoint : s.point = .asking) (hst : s.Stands t)
    (hmemory : (t.nextToken w).next.capacity < Checked.memory) :
    ∃ u entries, Reaches (.ofSource w) s entries u ∧ u.InRange ∧
      Mirrors .asking u entries (.settled (t.nextToken w)) := by
  fun_induction Scanner.nextToken w t generalizing s with
  | case1 t reply hconsult =>
    obtain ⟨u, entries, hask, hmirrors⟩ := ask_mirrors h hst
    rw [hconsult] at hmirrors
    have hstep : s.step (.ofSource w) = .ok (u, entries) := by
      rw [step, hpoint]
      exact hask
    exact ⟨u, entries, reaches_step hstep, (h.of_step hstep).inRange, hmirrors⟩
  | case2 t v before hconsult reply hrefill =>
    have hallocated : (v.refill w).next.capacity < Checked.memory := by
      rw [hrefill]
      exact hmemory
    obtain ⟨u, entries, hreaches, hu, hmirrors⟩ := round_mirrors h hpoint hst hconsult hallocated
    rw [hrefill] at hmirrors
    exact ⟨u, entries, hreaches, hu, hmirrors⟩
  | case3 t v before hconsult refilled after hrefill ih =>
    -- the buffer never shrinks, so what is allocated at the end is enough
    have hallocated : (v.refill w).next.capacity < Checked.memory := by
      rw [hrefill]
      exact Nat.lt_of_le_of_lt (Scanner.nextToken_leaves w refilled).capacity_le hmemory
    obtain ⟨u, entries, hreaches, hu, hmirrors⟩ := round_mirrors h hpoint hst hconsult hallocated
    rw [hrefill] at hmirrors
    obtain ⟨hasking, hstands, hanswers, hevents⟩ := hmirrors
    obtain ⟨last, later, hrest, hlast, hsettled⟩ := ih hu hasking hstands hmemory
    have hboth := hsettled.after hanswers
    rw [hevents] at hboth
    exact ⟨last, _, hreaches.trans hrest, hlast, hboth⟩

/-- A handle as it is read in calls one after another, with so many steps in each.  The number of
    steps in a call depends on what the handle gives, so it is found by the proof. -/
def stretches (ws : List ω) (counts : List Nat) : List (Reader η) :=
  (ws.zip counts).flatMap fun (w, n) => List.replicate n (.ofSource w)

/-- **Calls are a run**, by induction on the calls. -/
theorem run_calls (ws : List ω) (h : s.InRange) (hpoint : s.point = .between) (hst : s.Stands t)
    (hmemory : (t.calls ws).next.capacity < Checked.memory) :
    ∃ counts u entries, counts.length = ws.length ∧
      run (stretches ws counts) s = .ok (u, entries) ∧ u.Stands (t.calls ws).next ∧
      Entry.answers entries = (t.calls ws).answer ∧
      Entry.events entries = (t.calls ws).events := by
  induction ws generalizing s t with
  | nil => exact ⟨[], s, [], rfl, rfl, hst, rfl, rfl⟩
  | cons w later ih =>
    -- the call begins with a step of its own, which the scanner does not have
    have hbegin : s.step (.ofSource w) = .ok ({ s with point := .asking }, []) := by
      rw [step, hpoint]
    -- later calls never give memory back
    have hallocated : (t.nextToken w).next.capacity < Checked.memory :=
      Nat.lt_of_le_of_lt (Scanner.calls_leaves later (t.nextToken w).next).capacity_le hmemory
    obtain ⟨called, first, hcall, hrange, hbetween, hstands, hanswer, hevents⟩ :=
      call_mirrors (h.of_step hbegin).inRange rfl { hst with } hallocated
    obtain ⟨counts, u, rest, hcounts, hrun, hlast, hanswers, hlater⟩ :=
      ih hrange hbetween hstands hmemory
    obtain ⟨n, hn⟩ := (reaches_step hbegin).trans hcall
    refine ⟨n :: counts, u, first ++ rest, congrArg (· + 1) hcounts, run_append hn hrun, hlast, ?_, ?_⟩
    · rw [Entry.answers_append, hanswer, hanswers]
      rfl
    · rw [Entry.events_append, hevents, hlater]
      rfl

/-- **Nothing points out of the buffer, and nothing is lost.**  For every policy, every limit and
    every handle that keeps the contract of reading, also in surroundings that change at every step:
    after any number of steps, over any number of calls, the window lies in the buffer and the
    buffer within the limit; what the handle gave is what accepted decisions consumed, followed by
    the window; every decision was made on just the window; and one for a record was accepted with
    the record where it fits, or refused as an overrun that consumes nothing.  No step but one that
    asks for more memory than there is stays without a result.

    The calls of the scanner are such runs, with the same answers, the same events and the same
    window, as long as what it allocates fits into memory. -/
theorem runs_upright (handle : η) (policy : π) (limit : Nat) :
    (∀ readers : List (Reader η), Upright limit [] (run readers (fresh handle policy limit))) ∧
    ∀ (ω : Type) [ByteSource ω η] (ws : List ω),
      Checked.memory ≤ ((Scanner.fresh handle policy limit).calls ws).next.capacity ∨
      ∃ counts s transcript, counts.length = ws.length ∧
        run (stretches ws counts) (fresh handle policy limit) = .ok (s, transcript) ∧
        s.Stands ((Scanner.fresh handle policy limit).calls ws).next ∧
        Entry.answers transcript = ((Scanner.fresh handle policy limit).calls ws).answer ∧
        Entry.events transcript = ((Scanner.fresh handle policy limit).calls ws).events := by
  have hrange := inRange_fresh handle policy limit
  constructor
  · intro readers
    exact run_upright readers hrange ledger_nil
  · intro ω _ ws
    rcases Nat.lt_or_ge ((Scanner.fresh handle policy limit).calls ws).next.capacity Checked.memory
      with hmemory | hmemory
    · exact Or.inr (run_calls ws hrange rfl (stands_fresh handle policy limit) hmemory)
    · exact Or.inl hmemory

end RawScanner

end RecordFeed
