/-
  A buffer grows only for a record that needs it.

  However many records a stream holds, what its scanner allocates depends on the longest of them
  alone.  A buffer is made longer only when it is full, and what fills it then is a single record
  that has not ended, from the very first byte of the buffer on.

  1. **Pieces** (`pieces`).  Cutting behind each delimiter leaves pieces, the last of them without
     one.  Bytes that come later only make the last piece longer, so the longest one does not become
     shorter (`longest_mono`).

  2. **One step** (`Resized`).  Only growing changes the length of a buffer, and it doubles it.

  3. **The invariant** (`Frugal`).  What was consumed ends where a piece ends, so that the window is
     cut like the bytes of which it is the rest (`Aligned`).  A buffer that is about to grow is full
     after it was compacted, so its window begins at its front; the policy has seen no delimiter
     there; so the window is all of one piece, and as long as the buffer.

  4. `buffer_proportioned` says the same of all runs.
-/
import Mathlib.Algebra.Group.Nat.Defs
import RecordFeed.Proofs.Records.Restraint

namespace RecordFeed

/-! ## Pieces

  A piece is a record with its delimiter.  What does not end in one is a piece as well, for a
  buffer has to hold it too. -/

/-- The bytes cut behind each delimiter: records with the delimiters that end them, and what is
    left.  No byte is in none of them or in two (`flatten_pieces`). -/
def pieces (delimiter bytes : Bytes) : List Bytes :=
  match _h : Bytes.firstAt? delimiter bytes with
  | some i =>
    bytes.take (i + delimiter.length) :: pieces delimiter (bytes.drop (i + delimiter.length))
  | none => [bytes]
termination_by bytes.length
decreasing_by
  have hoccurs := (Bytes.firstAt?_eq_some_iff.mp _h).1
  have hpos := List.length_pos_iff.mpr hoccurs.1
  have hinside := hoccurs.lt_length
  rw [List.length_drop]
  omega

/-- The length of the longest piece. -/
def longest (delimiter bytes : Bytes) : Nat :=
  ((pieces delimiter bytes).map List.length).foldr max 0

variable {delimiter : Bytes}

/-- The equation of `pieces` where there is a delimiter.  It is stated without the proof that the
    recursion carries along. -/
theorem pieces_of_some {bytes : Bytes} {i : Nat} (h : Bytes.firstAt? delimiter bytes = some i) :
    pieces delimiter bytes =
      bytes.take (i + delimiter.length) :: pieces delimiter (bytes.drop (i + delimiter.length)) := by
  rw [pieces]
  -- unfolding leaves the match on the search behind, with its own equation
  split
  · rename_i found
    obtain rfl := Option.some.inj (found.symm.trans h)
    rfl
  · rename_i found
    cases found.symm.trans h

/-- The equation where there is none. -/
theorem pieces_of_none {bytes : Bytes} (h : Bytes.firstAt? delimiter bytes = none) :
    pieces delimiter bytes = [bytes] := by
  rw [pieces]
  split
  · rename_i found
    cases found.symm.trans h
  · rfl

/-- The pieces are all of the bytes, in their order. -/
theorem flatten_pieces (delimiter bytes : Bytes) : (pieces delimiter bytes).flatten = bytes := by
  fun_induction pieces delimiter bytes with
  | case1 bytes i hi ih => rw [List.flatten_cons, ih, List.take_append_drop]
  | case2 bytes hnone => exact List.flatten_singleton

example : pieces [10, 10] [97, 10, 10, 10, 98] = [[97, 10, 10], [10, 98]] := by cbv

/-- The first piece, or one of the others. -/
theorem longest_of_some {bytes : Bytes} {i : Nat} (h : Bytes.firstAt? delimiter bytes = some i) :
    longest delimiter bytes =
      max (i + delimiter.length) (longest delimiter (bytes.drop (i + delimiter.length))) := by
  have hend := (Bytes.firstAt?_eq_some_iff.mp h).1.add_length_le
  rw [longest, pieces_of_some h, List.map_cons, List.foldr_cons, List.length_take_of_le hend]
  rfl

theorem longest_of_none {bytes : Bytes} (h : Bytes.firstAt? delimiter bytes = none) :
    longest delimiter bytes = bytes.length := by
  rw [longest, pieces_of_none h]
  exact Nat.max_zero _

/-- A piece in front leaves the others as they are, whatever comes later. -/
theorem longest_drop_append_le {bytes : Bytes} {i : Nat}
    (h : Bytes.firstAt? delimiter bytes = some i) (more : Bytes) :
    longest delimiter (bytes.drop (i + delimiter.length) ++ more) ≤
      longest delimiter (bytes ++ more) := by
  have hend := (Bytes.firstAt?_eq_some_iff.mp h).1.add_length_le
  rw [longest_of_some (Bytes.firstAt?_of_prefix (List.prefix_append bytes more) h),
    List.drop_append_of_le_length hend]
  exact Nat.le_max_right _ _

/-- **Bytes that come later do not make the longest piece shorter.**  By induction on the pieces:
    each that a delimiter ends stays, and the last one goes on. -/
theorem longest_mono {part bytes : Bytes} (hpart : part <+: bytes) :
    longest delimiter part ≤ longest delimiter bytes := by
  fun_induction pieces delimiter part generalizing bytes with
  | case1 part i hi ih =>
    -- the same delimiter is the first one in the longer bytes, and the induction goes behind it
    have hrest := ih (hpart.drop (i + delimiter.length))
    rw [longest_of_some hi, longest_of_some (Bytes.firstAt?_of_prefix hpart hi)]
    omega
  | case2 part hnone =>
    have hlength := hpart.length_le
    rw [longest_of_none hnone]
    cases hfound : Bytes.firstAt? delimiter bytes with
    | none =>
      rw [longest_of_none hfound]
      exact hlength
    | some i =>
      -- the bytes had no delimiter, so one that is there now ends behind them
      have hbehind := Bytes.length_lt_of_firstAt? hpart hnone hfound
      rw [longest_of_some hfound]
      omega

namespace RawScanner

variable {η π : Type}

/-! ## One step

  The length of a buffer changes at one place in the loop.  All other steps can be left out of
  the argument from here on. -/

/-- All that a step can do to the length of the buffer. -/
inductive Resized (s t : RawScanner η π) : Prop where
  | same (hlength : t.buf.length = s.buf.length)
  | doubled (hpoint : s.point = .growing) (hfull : s.stop = s.buf.length)
      (hlimit : s.buf.length < s.limit) (hlength : t.buf.length = s.grown)

/-- A read leaves the length of the buffer alone, whatever comes of it. -/
theorem length_of_read {s t : RawScanner η π} {entries : List Entry} (h : s.InRange) {r : Reader η}
    (hread : s.read r = .ok (t, entries)) : t.buf.length = s.buf.length := by
  have hleft := r.length_read s.handle (s.buf.drop s.stop)
  rw [List.length_drop] at hleft
  -- the handle writes as many bytes as it was shown
  obtain ⟨hrange, -, hlength, hfree⟩ := leave_spec h hleft
  rw [read_eq h] at hread
  cases hgiven : (r.read s.handle (s.buf.drop s.stop)).1 with
  | data bytes next =>
    rw [hgiven] at hread
    have hthere := (r.data_read hgiven).2
    rw [← hfree] at hthere
    obtain ⟨t', hreceive, rfl, -, -⟩ :=
      receive_data hrange hthere (s.buf.length - s.stop) next
    obtain ⟨rfl, -⟩ := Prod.mk.inj (Except.ok.inj (hreceive.symm.trans hread))
    exact hlength
  | ended next | interrupted next | failed error next =>
    rw [hgiven] at hread
    obtain ⟨rfl, -⟩ := Prod.mk.inj (Except.ok.inj hread)
    exact hlength

/-- One case for each place in the loop; only where a scanner makes room is there anything to look
    at. -/
theorem resized_of_step [SplitPolicy π] {s t : RawScanner η π} {entries : List Entry}
    (h : s.InRange) {r : Reader η} (hstep : s.step r = .ok (t, entries)) : Resized s t := by
  cases stepped_of_step h hstep with
  | begins hpoint => exact .same rfl
  | asks hpoint hasked => cases hasked <;> exact .same rfl
  | compacts hpoint hmoved => exact .same hmoved.length_eq
  | reads hpoint hled =>
    rw [step, hpoint] at hstep
    exact .same (length_of_read h hstep)
  | grows hpoint hgrown =>
    rw [step, hpoint] at hstep
    have hstep : s.grow = .ok (t, entries) := hstep
    by_cases hfull : s.stop = s.buf.length
    · by_cases hlimit : s.buf.length < s.limit
      · -- the buffer is full and below its limit
        have hlonger := lt_grown hlimit
        refine .doubled hpoint hfull hlimit ?_
        rw [grow_resize h hfull hlimit, Checked.resize] at hstep
        split at hstep
        · obtain ⟨rfl, -⟩ := Prod.mk.inj (Except.ok.inj hstep)
          show (s.buf.take s.grown ++ _).length = s.grown
          rw [List.length_append, List.length_take, List.length_replicate]
          omega
        · simp [Except.bind] at hstep
      · rw [grow_full hfull (Nat.not_lt.mp hlimit)] at hstep
        obtain ⟨rfl, -⟩ := Prod.mk.inj (Except.ok.inj hstep)
        exact .same rfl
    · rw [grow_open hfull] at hstep
      obtain ⟨rfl, -⟩ := Prod.mk.inj (Except.ok.inj hstep)
      exact .same rfl

/-- No step makes the buffer shorter. -/
theorem Resized.length_le {s t : RawScanner η π} (h : Resized s t) : s.buf.length ≤ t.buf.length := by
  cases h with
  | same hlength => omega
  | doubled hpoint hfull hlimit hlength =>
    have := lt_grown hlimit
    omega

/-! ## The invariant

  Two things are carried together: that the window begins where a piece begins, and that the
  buffer is not much longer than the longest piece so far. -/

section Delimiters

variable {s t : RawScanner η Delimiter} {transcript entries : List Entry} {r : Reader η}

/-- While the stream is open, what was consumed ends where a piece ends: whatever comes, no piece
    that begins in the window is longer than the longest one of all bytes.  After the end of the
    stream the last record is consumed in the middle of a piece, so nothing is claimed then; no
    buffer grows any more. -/
def Aligned (delimiter : Bytes) (s : RawScanner η Delimiter) (transcript : List Entry) : Prop :=
  s.atEof = false → ∀ more, longest delimiter (s.window ++ more) ≤
    longest delimiter (Entry.delivered transcript ++ more)

/-- Nothing is consumed and nothing given. -/
theorem Aligned.of_window (h : s.Aligned delimiter transcript) (hwindow : t.window = s.window)
    (hopen : t.atEof = false → s.atEof = false) (hnothing : Entry.delivered entries = []) :
    t.Aligned delimiter (transcript ++ entries) := by
  intro hEof more
  rw [hwindow, Entry.delivered_append, hnothing, List.append_nil]
  exact h (hopen hEof) more

/-- **Turning to the policy** consumes a piece from its beginning to its end, or nothing. -/
theorem Aligned.ask (h : s.Aligned delimiter transcript) (hvain : s.Vain delimiter)
    (hasked : Asked s t entries) : t.Aligned delimiter (transcript ++ entries) := by
  cases hasked with
  | ended | waits | more | closed => exact h.of_window rfl id rfl
  | @cut policy advance start stop hrunning hdecided hfits =>
    intro hopen more
    have hopen : s.atEof = false := hopen
    have hwindow : ({ s with policy, start := s.start + advance, point := .between } :
        RawScanner η Delimiter).window = s.window.drop advance := by
      rw [window, window, List.drop_drop]
    rw [hwindow, Entry.delivered_append]
    show _ ≤ longest delimiter (Entry.delivered transcript ++ [] ++ more)
    rw [List.append_nil]
    -- on an open stream only a delimiter ends a record
    rw [hvain.policy_eq, Delimiter.policy_split, hopen] at hdecided
    cases hfound : Bytes.firstAt? delimiter s.window with
    | none =>
      rw [Delimiter.split_of_open hfound] at hdecided
      simp at hdecided
    | some i =>
      rw [Delimiter.split_of_found hfound] at hdecided
      obtain ⟨rfl, -, -⟩ := Split.token.inj (Prod.mk.inj hdecided).1
      exact (longest_drop_append_le hfound more).trans (h hopen more)

/-- Reading makes the window longer by what was given. -/
theorem Aligned.read (h : s.Aligned delimiter transcript) (hopen : s.atEof = false)
    {outcome : ReadOutcome η} (hled : s.Led t outcome entries) :
    t.Aligned delimiter (transcript ++ entries) := by
  cases hled with
  | interrupted hpoint hhandle hroom hwindow hpolicy hdone hEof =>
    exact h.of_window hwindow (fun _ => hopen) rfl
  | ended hpoint hhandle hwindow hpolicy hdone hEof =>
    exact h.of_window hwindow (fun _ => hopen) rfl
  | failed hpoint hhandle hwindow hpolicy hdone =>
    exact h.of_window hwindow (fun _ => hopen) rfl
  | @data bytes next hpoint hhandle hwindow hpolicy hdone hEof =>
    intro _ more
    -- the bytes move from what is still to come into the window
    have hgiven : Entry.delivered [.read s.free.length bytes] = bytes := List.append_nil bytes
    rw [hwindow, Entry.delivered_append, hgiven, List.append_assoc, List.append_assoc]
    exact h hopen (bytes ++ more)

/-- A buffer that has not grown for nothing.  The length is tied to the longest piece of all bytes
    that were given, and these only become more. -/
structure Frugal (delimiter : Bytes) (limit : Nat) (s : RawScanner η Delimiter)
    (transcript : List Entry) : Prop where
  limit_eq : s.limit = limit
  aligned : s.Aligned delimiter transcript
  /-- Compacting has left no room in front of a window that reaches the end. -/
  compacted : s.point = .growing → s.stop = s.buf.length → s.start = 0
  doubled : s.buf.length = 0 ∨ ∃ k, s.buf.length = min limit (4096 * 2 ^ k)
  needed : s.buf.length ≤ max 4096 (2 * longest delimiter (Entry.delivered transcript))

/-- A buffer that was not allocated yet is as short as can be. -/
theorem frugal_fresh (handle : η) (delimiter : Bytes) (limit : Nat) :
    (fresh handle (Delimiter.mk delimiter) limit).Frugal delimiter limit [] where
  limit_eq := rfl
  aligned _ _ := Nat.le_refl _
  compacted h := by simp [fresh] at h
  doubled := Or.inl rfl
  needed := Nat.zero_le _

/-- Each step keeps the window aligned. -/
theorem Aligned.step (h : s.Aligned delimiter transcript) (hvain : s.Vain delimiter)
    (hheld : s.Held transcript) (hstepped : Stepped r s t entries) :
    t.Aligned delimiter (transcript ++ entries) := by
  cases hstepped with
  | begins hpoint => exact h.of_window rfl id rfl
  | asks hpoint hasked => exact h.ask hvain hasked
  | compacts hpoint hmoved =>
    refine h.of_window hmoved.window_eq ?_ rfl
    rw [hmoved.same]
    exact id
  | grows hpoint hgrown =>
    cases hgrown with
    | full => exact h.of_window rfl id rfl
    | room hreading hroom hwindow hdone hEof hpolicy hhandle =>
      exact h.of_window hwindow (fun hopen => hEof.symm.trans hopen) rfl
  | reads hpoint hled =>
    have hplaced := hheld.placed
    simp only [Placed, hpoint] at hplaced
    obtain ⟨-, n, hwants⟩ := hplaced
    exact h.read hwants.unended hled

/-- A buffer is about to grow only after it was compacted. -/
theorem compacted_of_stepped (hrange : s.InRange) (hstepped : Stepped r s t entries) :
    t.point = .growing → t.stop = t.buf.length → t.start = 0 := by
  intro hgrowing hfull
  cases hstepped with
  | begins hpoint => simp at hgrowing
  | asks hpoint hasked => cases hasked <;> simp at hgrowing
  | compacts hpoint hmoved =>
    have hwindow := congrArg List.length hmoved.window_eq
    have hstart := hmoved.start_eq
    have hlength := hmoved.length_eq
    rw [hrange.length_window, (hmoved.inRange hrange).length_window] at hwindow
    have hbefore := hrange.start_le
    have hafter := hmoved.start_le
    split at hstart
    · exact hstart
    · -- where nothing was moved the window reached the end before, and so began at the front
      omega
  | grows hpoint hgrown =>
    cases hgrown with
    | full => simp at hgrowing
    | room hreading hroom hwindow hdone hEof hpolicy hhandle => simp [hreading] at hgrowing
  | reads hpoint hled =>
    generalize (r.read s.handle s.free).1 = outcome at hled
    cases hled with
    | interrupted point => cases point.symm.trans hgrowing
    | data point => cases point.symm.trans hgrowing
    | ended point => cases point.symm.trans hgrowing
    | failed point => cases point.symm.trans hgrowing

/-- **The crux.** A full buffer that is about to grow holds one piece that has not ended.
    `compacted` gives where the window begins, `Vain` that it holds no delimiter, and `aligned` that
    it is the beginning of a piece of all bytes. -/
theorem Frugal.length_le_longest {limit : Nat} (h : s.Frugal delimiter limit transcript)
    (hrange : s.InRange) (hvain : s.Vain delimiter) (hheld : s.Held transcript)
    (hpoint : s.point = .growing) (hfull : s.stop = s.buf.length) :
    s.buf.length ≤ longest delimiter (Entry.delivered transcript) := by
  have hstart := h.compacted hpoint hfull
  have hlength : s.window.length = s.buf.length := by
    rw [hrange.length_window]
    omega
  have hunended : Bytes.firstAt? delimiter s.window = none := by
    apply hvain.unseen
    simp [hpoint]
  have hplaced := hheld.placed
  simp only [Placed, hpoint] at hplaced
  have hpiece := h.aligned hplaced.unended []
  rw [List.append_nil, List.append_nil, longest_of_none hunended] at hpiece
  omega

/-- **A step** of a scanner that holds back makes the buffer no longer than it has to. -/
theorem Frugal.step {limit : Nat} (h : s.Frugal delimiter limit transcript) (hrange : s.InRange)
    (hvain : s.Vain delimiter) (hheld : s.Held transcript)
    (hstep : s.step r = .ok (t, entries)) : t.Frugal delimiter limit (transcript ++ entries) := by
  have hstepped := stepped_of_step hrange hstep
  -- what was needed before is needed still
  have hmore : longest delimiter (Entry.delivered transcript) ≤
      longest delimiter (Entry.delivered (transcript ++ entries)) := by
    rw [Entry.delivered_append]
    exact longest_mono (List.prefix_append _ _)
  have hlimit := h.limit_eq
  have hneeded := h.needed
  constructor
  case limit_eq => exact (hrange.of_step hstep).limit_eq.trans hlimit
  case aligned => exact h.aligned.step hvain hheld hstepped
  case compacted => exact compacted_of_stepped hrange hstepped
  case doubled =>
    cases resized_of_step hrange hstep with
    | same hlength =>
      rw [hlength]
      exact h.doubled
    | doubled hpoint hfull hbelow hlength =>
      right
      rw [hlength, grown, Scanner.firstCapacity, hlimit]
      rcases h.doubled with hnone | ⟨k, hk⟩
      · -- the first allocation
        refine ⟨0, ?_⟩
        rw [hnone]
        omega
      · -- below the limit the buffer has its full size
        refine ⟨k + 1, ?_⟩
        have hpos : 0 < 2 ^ k := Nat.two_pow_pos k
        rw [Nat.pow_succ]
        omega
  case needed =>
    cases resized_of_step hrange hstep with
    | same hlength => omega
    | doubled hpoint hfull hbelow hlength =>
      have hcrux := h.length_le_longest hrange hvain hheld hpoint hfull
      rw [hlength, grown, Scanner.firstCapacity]
      omega

/-! ## All runs

  The run lemma gives the invariant at every moment, and the invariant gives the bounds. -/

/-- A buffer in proportion to what it has to hold. -/
structure Proportioned (delimiter : Bytes) (limit : Nat) (s : RawScanner η Delimiter)
    (transcript : List Entry) : Prop where
  /-- It was not allocated yet, or has doubled some times, up to the limit. -/
  doubled : s.buf.length = 0 ∨ ∃ k, s.buf.length = min limit (4096 * 2 ^ k)
  /-- Beyond its first size it is at most twice as long as some piece of what the handle gave. -/
  needed : s.buf.length ≤
    min limit (max 4096 (2 * longest delimiter (Entry.delivered transcript)))
  /-- It never becomes shorter. -/
  lasting : ∀ readers : List (Reader η),
    Ends limit (fun t _ => s.buf.length ≤ t.buf.length) (run readers s)

/-- **A buffer grows only for a record that needs it.**  For every delimiter, every handle that
    keeps the contract of reading and every limit, wherever a run of any number of steps has come
    to, over any number of calls: the buffer has no bytes, or 4096 doubled some number of times,
    up to the limit; it has at most 4096 bytes or twice as many as the longest piece of what the
    handle gave so far; and it never becomes shorter. -/
theorem buffer_proportioned (handle : η) (delimiter : Bytes) (limit : Nat) :
    Throughout handle (Delimiter.mk delimiter) limit (Proportioned delimiter limit) := by
  apply throughout_of_runs
  intro readers
  have hfresh : (fresh handle (Delimiter.mk delimiter) limit).Vain delimiter :=
    ⟨rfl, fun _ => rfl⟩
  -- the three invariants are carried together, since each step of `Frugal` uses the other two
  have hfrugal := run_keeps
    (fun s transcript => s.Held transcript ∧ s.Vain delimiter ∧ s.Frugal delimiter limit transcript)
    (fun hrange hs hstep => ⟨hs.1.step hrange hstep, hs.2.1.step hs.1 hrange hstep,
      hs.2.2.step hrange hs.2.1 hs.1 hstep⟩)
    readers (inRange_fresh handle _ limit)
    ⟨held_fresh handle _ limit, hfresh, frugal_fresh handle delimiter limit⟩
  refine hfrugal.mono ?_
  rintro s transcript ⟨hrange, -, -, hs⟩
  constructor
  case doubled => exact hs.doubled
  case needed =>
    have hlimit := hrange.length_le
    have hneeded : s.buf.length ≤ max 4096 (2 * longest delimiter (Entry.delivered transcript)) :=
      hs.needed
    rw [hs.limit_eq] at hlimit
    omega
  case lasting =>
    intro more
    -- the run may go on, in any surroundings
    have hlonger := run_keeps_of_mem (fun t _ => s.buf.length ≤ t.buf.length) more
      (fun _ _ hrange' ht hstep => Nat.le_trans ht (resized_of_step hrange' hstep).length_le)
      hrange [] (Nat.le_refl _)
    rw [hs.limit_eq] at hlonger
    exact hlonger.mono fun _ _ ht => ht.2

end Delimiters

end RawScanner

end RecordFeed
