/-
  The scanner: records from a handle through a bounded window.

  A scanner owns a handle, a split policy and a buffer.  Of the buffer only three things matter:
  where the unconsumed bytes begin (`start`), what they are (`window`), and how many bytes are
  allocated (`capacity`).  One call of `nextToken` goes round a loop of two steps:

  * `consult`   shows the window to the policy and acts on its decision;
  * `refill`    makes room behind the window and reads the handle once.

  Making room compacts before it grows, and grows by doubling up to the limit, so the buffer is
  full and at the limit exactly when one unfinished record fills it.

  Why the loop ends: a `refill` that does not settle the call either takes bytes from the handle
  (`ByteSource.left` falls) or sees the end of the stream, and after the end `consult` settles
  every call.  `unseen` adds the two up.
-/
import RecordFeed.Source
import RecordFeed.Split

namespace RecordFeed

/-- A handle under a split policy, with the bytes read and not yet consumed. -/
structure Scanner (η π : Type) where
  handle : η
  policy : π
  /-- the buffer never holds more bytes -/
  limit : Nat
  /-- the unconsumed bytes -/
  window : Buffered := {}
  /-- where in the buffer the window begins -/
  start : Nat := 0
  /-- the bytes allocated for the buffer -/
  capacity : Nat := 0
  /-- the handle has said that the stream is over -/
  atEof : Bool := false
  /-- nothing more will be answered -/
  done : Bool := false

/-- What a scanner answers: a record, that there are no more, or why it gives up. -/
abbrev ScanAnswer := Except FeedError (Option Bytes)

/-- A step of the loop: it settles the call, or leaves a state to go on from. -/
inductive ScanStep (η π : Type) where
  | settled (reply : Reply (Scanner η π) ScanAnswer)
  | onward (next : Scanner η π) (events : List Event)

namespace Scanner

variable {ω η π : Type}

/-- A scanner that has read nothing yet. -/
def fresh (handle : η) (policy : π) (limit : Nat) : Scanner η π := { handle, policy, limit }

/-- The buffer is first allocated with so many bytes. -/
def firstCapacity : Nat := 4096

/-- Where in the buffer the window ends. -/
def stop (s : Scanner η π) : Nat := s.start + s.window.size

/-! ## Making room

  Room is made behind the window: first by moving the window to the front, and if this is not
  enough by allocating more. -/

/-- Moves the window to the front of the buffer, when it has reached the end or when more than half
    of the buffer lies unused before it.  A window that still has room behind it and little before
    it stays, so that not every read moves it. -/
def compact (s : Scanner η π) : Scanner η π :=
  if 0 < s.start ∧ (s.stop = s.capacity ∨ s.capacity / 2 < s.start) then { s with start := 0 }
  else s

/-- Allocates more when the window ends where the buffer ends.  `none` at the limit.  With room left
    behind the window there is nothing to do.  Doubling makes the number of allocations small, and
    the limit comes last, so that it is never passed. -/
def grow? (s : Scanner η π) : Option (Scanner η π) :=
  if s.stop = s.capacity then
    if s.limit ≤ s.capacity then none
    else some { s with capacity := min (max (s.capacity * 2) firstCapacity) s.limit }
  else some s

theorem compact_eq (s : Scanner η π) : s.compact = { s with start := s.compact.start } := by
  unfold compact
  split <;> rfl

/-! Each field but the place of the window is as it was. -/

@[simp] theorem compact_window (s : Scanner η π) : s.compact.window = s.window := by
  rw [compact_eq]

@[simp] theorem compact_handle (s : Scanner η π) : s.compact.handle = s.handle := by
  rw [compact_eq]

@[simp] theorem compact_policy (s : Scanner η π) : s.compact.policy = s.policy := by
  rw [compact_eq]

@[simp] theorem compact_atEof (s : Scanner η π) : s.compact.atEof = s.atEof := by
  rw [compact_eq]

@[simp] theorem compact_limit (s : Scanner η π) : s.compact.limit = s.limit := by
  rw [compact_eq]

@[simp] theorem compact_capacity (s : Scanner η π) : s.compact.capacity = s.capacity := by
  rw [compact_eq]

@[simp] theorem compact_done (s : Scanner η π) : s.compact.done = s.done := by
  rw [compact_eq]

theorem grow?_eq {s t : Scanner η π} (h : s.grow? = some t) :
    t = { s with capacity := t.capacity } := by
  unfold grow? at h
  split at h
  · split at h
    · simp at h
    · obtain rfl := Option.some.inj h; rfl
  · obtain rfl := Option.some.inj h; rfl

/-! ## Reading

  Interrupted reads are made again, with as much room as before. -/

/-- A read that is not an interruption. -/
inductive Pulled (η : Type) where
  | data (bytes : Bytes) (next : η)
  | ended (next : η)
  | failed (error : IoError) (next : η)

/-- Reads until a read is not interrupted, and counts the reads.  The recursion ends because each
    interruption is paid for by the handle (`ByteSource.left`). -/
def pull [ByteSource ω η] (w : ω) (room : Nat) (h : η) : Pulled η × Nat :=
  match _hread : ByteSource.read w h room with
  | .data bytes next => (.data bytes next, 1)
  | .ended next => (.ended next, 1)
  | .failed error next => (.failed error next, 1)
  | .interrupted next => ((pull w room next).1, (pull w room next).2 + 1)
termination_by ByteSource.left w h
decreasing_by all_goals exact ByteSource.read_interrupted _hread

/-- Bytes that were pulled are fewer left.  The interruptions before them only help. -/
theorem pull_data [ByteSource ω η] {w : ω} {room : Nat} {h next : η} {bytes : Bytes}
    (hp : (pull w room h).1 = .data bytes next) :
    bytes ≠ [] ∧ bytes.length ≤ room ∧
      ByteSource.left w next + bytes.length ≤ ByteSource.left w h := by
  fun_induction pull w room h with
  | case1 h bytes' next' hread =>
    simp only [Pulled.data.injEq] at hp
    obtain ⟨rfl, rfl⟩ := hp
    exact ByteSource.read_data hread
  | case2 | case3 => simp at hp
  | case4 h next' hread ih =>
    have hdrop := ByteSource.read_interrupted hread
    -- the interruption cost something, so the bound of the whole is no smaller
    obtain ⟨h1, h2, h3⟩ := ih hp
    exact ⟨h1, h2, by omega⟩

/-- The end of a stream does not put anything back. -/
theorem pull_ended [ByteSource ω η] {w : ω} {room : Nat} {h next : η}
    (hp : (pull w room h).1 = .ended next) :
    ByteSource.left w next ≤ ByteSource.left w h := by
  fun_induction pull w room h with
  | case1 | case3 => simp at hp
  | case2 h next' hread =>
    simp only [Pulled.ended.injEq] at hp
    obtain rfl := hp
    exact ByteSource.read_ended hread
  | case4 h next' hread ih =>
    have hdrop := ByteSource.read_interrupted hread
    have := ih hp
    omega

/-! ## The two steps of the loop

  Each step settles the call or goes on.  What goes on is nearer to the end of the stream,
  which is why the loop ends. -/

/-- Acts on a decision about the window.  A policy may be anyone's, so a record that does not fit
    into the window is refused and not cut; after the end of the stream a need for more bytes is an
    answer as well, because none can come. -/
def act (s : Scanner η π) (events : List Event) : Split → ScanStep η π
  | .token advance start stop =>
    if Split.Fits advance start stop s.window.size then
      .settled
        { answer := .ok (some (s.window.slice start stop))
          next := { s with window := s.window.drop advance, start := s.start + advance }
          events }
    else
      .settled
        { answer := .error (.splitOverrun advance s.window.size)
          next := { s with done := true }
          events }
  | .finished => .settled { answer := .ok none, next := { s with done := true }, events }
  | .needMore =>
    if s.atEof then .settled { answer := .ok none, next := { s with done := true }, events }
    else .onward s events

/-- Shows the window to the policy, unless nothing has come yet and something still may.  An empty
    window is shown to a policy only at the end of the stream, where it may still have something to
    say. -/
def consult [SplitPolicy π] (s : Scanner η π) : ScanStep η π :=
  if s.done then .settled { answer := .ok none, next := s }
  else if s.window.isEmpty && !s.atEof then .onward s []
  else
    let size := s.window.size
    let decided := SplitPolicy.splitBuffered s.policy s.window s.atEof
    { s with policy := decided.1.2, window := decided.2 }.act [.consulted size s.atEof] decided.1.1

/-- Makes room and reads the handle once.  Where no room can be made, one unfinished record fills
    the buffer and the limit does not let it grow. -/
def refill [ByteSource ω η] (w : ω) (s : Scanner η π) : ScanStep η π :=
  match s.compact.grow? with
  | none =>
    .settled
      { answer := .error (.tokenTooLarge s.limit), next := { s.compact with done := true } }
  | some t =>
    let room := t.capacity - t.stop
    let pulled := pull w room t.handle
    let events := List.replicate pulled.2 (.offered room)
    match pulled.1 with
    | .data bytes next => .onward { t with handle := next, window := t.window.append bytes } events
    | .ended next => .onward { t with handle := next, atEof := true } events
    | .failed error next =>
      .settled
        { answer := .error (.io error), next := { t with handle := next, done := true }, events }

/-- What the handle may still give, and whether its end has still to be seen. -/
def unseen [ByteSource ω η] (w : ω) (s : Scanner η π) : Nat :=
  ByteSource.left w s.handle + if s.atEof then 0 else 1

/-- Only a need for more bytes settles nothing, and only while the stream is open. -/
theorem act_onward {s t : Scanner η π} {events events' : List Event} {decision : Split}
    (h : s.act events decision = .onward t events') : s.atEof = false ∧ t = s := by
  unfold act at h
  split at h
  · split at h <;> simp at h
  · simp at h
  · split at h
    · simp at h
    · rename_i hopen
      simp only [ScanStep.onward.injEq] at h
      exact ⟨by simpa using hopen, h.1.symm⟩

/-- Only an open stream leaves the policy without an answer, and the scanner is left as it was. -/
theorem consult_onward [SplitPolicy π] {s t : Scanner η π} {events : List Event}
    (h : s.consult = .onward t events) :
    s.atEof = false ∧ t = { s with policy := t.policy, window := t.window } ∧
      t.window.toList = s.window.toList := by
  unfold consult at h
  split at h
  · simp at h
  · split at h
    · rename_i hopen
      simp only [ScanStep.onward.injEq] at h
      obtain ⟨rfl, -⟩ := h
      simp only [Bool.and_eq_true, Bool.not_eq_true'] at hopen
      exact ⟨hopen.2, rfl, rfl⟩
    · obtain ⟨hopen, rfl⟩ := act_onward h
      exact ⟨hopen, rfl, SplitPolicy.splitBuffered_toList _ _ _⟩

/-- A step that reads and settles nothing has seen more of an open stream.  Bytes that came make the
    handle's bound smaller by as many as the window becomes longer; the end of the stream is seen
    once. -/
theorem refill_onward [ByteSource ω η] {w : ω} {s t : Scanner η π} {events : List Event}
    (hopen : s.atEof = false) (h : s.refill w = .onward t events) :
    t.unseen w < s.unseen w ∧ t.policy = s.policy ∧
      ByteSource.left w t.handle + t.window.size ≤
        ByteSource.left w s.handle + s.window.size := by
  unfold refill at h
  split at h
  · simp at h
  · rename_i u hgrow
    have hu := grow?_eq hgrow
    -- making room has touched neither the handle nor the bytes
    have hhandle : u.handle = s.handle := by rw [hu]; exact compact_handle s
    have hwindow : u.window = s.window := by rw [hu]; exact compact_window s
    have hpolicy : u.policy = s.policy := by rw [hu]; exact compact_policy s
    have hEof : u.atEof = false := by rw [hu]; exact (compact_atEof s).trans hopen
    simp only at h
    split at h
    · rename_i bytes next hp
      -- bytes came: the handle has fewer left, and at least one
      obtain ⟨hne, -, hleft⟩ := pull_data hp
      have hpos := List.length_pos_iff.mpr hne
      simp only [ScanStep.onward.injEq] at h
      obtain ⟨rfl, -⟩ := h
      simp only [unseen, hEof, hopen, Buffered.size_append, hwindow, hhandle] at hleft ⊢
      exact ⟨by simp; omega, hpolicy, by omega⟩
    · rename_i next hp
      -- the end came: the handle may have as much left, but its end has been seen now
      have hleft := pull_ended hp
      simp only [ScanStep.onward.injEq] at h
      obtain ⟨rfl, -⟩ := h
      simp only [unseen, hopen, hwindow, hhandle] at hleft ⊢
      exact ⟨by simp; omega, hpolicy, by omega⟩
    · simp at h

/-- Both steps together bring an open stream nearer to its end. -/
theorem unseen_lt [ByteSource ω η] [SplitPolicy π] {w : ω} {s t u : Scanner η π}
    {e₁ e₂ : List Event} (h₁ : s.consult = .onward t e₁) (h₂ : t.refill w = .onward u e₂) :
    u.unseen w < s.unseen w := by
  obtain ⟨hopen, ht, -⟩ := consult_onward h₁
  have hEof : t.atEof = false := by rw [ht]; exact hopen
  have hsame : t.unseen w = s.unseen w := by rw [ht]; rfl
  have := (refill_onward hEof h₂).1
  omega

/-! ## The loop

  The steps take turns, beginning with the question to the policy: there may be another record
  in the window already. -/

/-- The next record of the stream.  The two steps take turns; `unseen` falls with each round, and
    both readings of it are needed, for a round may bring bytes or only the end. -/
def nextToken [ByteSource ω η] [SplitPolicy π] (w : ω) (s : Scanner η π) :
    Reply (Scanner η π) ScanAnswer :=
  match _h₁ : s.consult with
  | .settled reply => reply
  | .onward t e₁ =>
    match _h₂ : t.refill w with
    | .settled reply => reply.after e₁
    | .onward u e₂ => (nextToken w u).after (e₁ ++ e₂)
termination_by s.unseen w
decreasing_by exact unseen_lt _h₁ _h₂

/-- What a feed can still read through the scanner. -/
def unread [ByteSource ω η] (w : ω) (s : Scanner η π) : Nat :=
  ByteSource.left w s.handle + s.window.size

/-- Under the delimiter policy every record consumes something, so records come to an end.  By
    induction on the rounds of the loop: what a round moves from the handle into the window changes
    no sum, and the record that settles the call takes something out of the window. -/
theorem nextToken_unread_lt [ByteSource ω η] {w : ω} {s : Scanner η Delimiter} {token : Bytes}
    (h : (s.nextToken w).answer = .ok (some token)) :
    (s.nextToken w).next.unread w < s.unread w := by
  fun_induction nextToken w s with
  | case1 s reply hc =>
    -- settled by the policy: only a record that fits is an answer of this kind
    unfold consult at hc
    split at hc
    · simp only [ScanStep.settled.injEq] at hc
      subst hc
      simp at h
    · split at hc
      · simp at hc
      · have hsize := Buffered.size_congr
          (SplitPolicy.splitBuffered_toList s.policy s.window s.atEof)
        dsimp only [act] at hc
        split at hc
        · rename_i advance start stop hs
          rw [SplitPolicy.splitBuffered_decision, Delimiter.policy_split] at hs
          obtain ⟨⟨hle, -, -⟩, -, hpos⟩ := Delimiter.split_token hs
          split at hc
          · simp only [ScanStep.settled.injEq] at hc
            subst hc
            rw [Buffered.length_toList] at hle
            simp only [unread, Buffered.size_drop, hsize]
            omega
          · simp only [ScanStep.settled.injEq] at hc
            subst hc
            simp at h
        · simp only [ScanStep.settled.injEq] at hc
          subst hc
          simp at h
        · split at hc
          · simp only [ScanStep.settled.injEq] at hc
            subst hc
            simp at h
          · simp at hc
  | case2 s t e₁ hc reply hr =>
    -- settled while reading: that is a failure or a window at the limit, and no record
    unfold refill at hr
    split at hr
    · simp only [ScanStep.settled.injEq] at hr
      subst hr
      simp at h
    · simp only at hr
      split at hr
      · simp at hr
      · simp at hr
      · simp only [ScanStep.settled.injEq] at hr
        subst hr
        simp at h
  | case3 s t e₁ hc u e₂ hr ih =>
    -- one more round: it has left what can be read no greater
    obtain ⟨hopen, ht, hwindow⟩ := consult_onward hc
    have hEof : t.atEof = false := by rw [ht]; exact hopen
    have hsame : t.unread w = s.unread w := by
      rw [unread, Buffered.size_congr hwindow, ht]
      rfl
    have hle := (refill_onward hEof hr).2.2
    have := ih h
    simp only [unread, Reply.after_next] at *
    omega

end Scanner

end RecordFeed
