/-
  How a scanner behaves, whatever its handle does.

  Nothing is assumed here about what a handle delivers: it may give other bytes in other
  surroundings, and fail when it likes.  Three things hold all the same, first for the two steps of
  the loop and then for whole calls and for the gathering of a message:

  * `nextToken_leaves`, `gather_leaves`   the limit stays what it was, the buffer never shrinks, and the
                                          events are reads and questions to the policy;
  * `nextToken_error`, `gather_failed`    under a delimiter policy only a record at the limit and a
                                          failure of the handle are errors: a delimiter never points
                                          out of the window.
-/
import RecordFeed.Feed

namespace RecordFeed

/-- An event of scanning: a read of the handle, or a question to the policy. -/
def Event.IsScanning : Event → Prop
  | .offered _ | .consulted _ _ => True
  | _ => False

namespace ScanStep

variable {η π : Type}

/-- The scanner after a step. -/
def next : ScanStep η π → Scanner η π
  | .settled reply => reply.next
  | .onward t _ => t

/-- The events of a step. -/
def events : ScanStep η π → List Event
  | .settled reply => reply.events
  | .onward _ events => events

end ScanStep

namespace Scanner

variable {ω η π : Type}

/-- What scanning leaves between two states: the limit, no fewer bytes allocated, and no events
    but its own. -/
structure Leaves (s t : Scanner η π) (events : List Event) : Prop where
  limit_eq : t.limit = s.limit
  capacity_le : s.capacity ≤ t.capacity
  scanning : ∀ e ∈ events, e.IsScanning

/-- What two stretches of scanning leave, one after the other. -/
theorem Leaves.trans {s t u : Scanner η π} {before after : List Event} (h : s.Leaves t before)
    (h' : t.Leaves u after) : s.Leaves u (before ++ after) := by
  constructor
  · exact h'.limit_eq.trans h.limit_eq
  · exact Nat.le_trans h.capacity_le h'.capacity_le
  · intro e he
    rcases List.mem_append.mp he with hmem | hmem
    · exact h.scanning e hmem
    · exact h'.scanning e hmem

/-! ## The two steps

  Each branch of a step is looked at once.  Two things are noted of it: what it leaves, for any
  policy, and with which errors it may settle a call, for the delimiter policy. -/

/-- What a decision of the policy leaves.  No case of it touches the limit or the buffer; the events
    are the ones it was given. -/
theorem act_leaves (s : Scanner η π) {events : List Event} (h : ∀ e ∈ events, e.IsScanning)
    (decision : Split) :
    s.Leaves (s.act events decision).next (s.act events decision).events := by
  -- the decision itself is left open: a policy may decide what it likes
  cases decision with
  | token advance start stop =>
    by_cases hfits : Split.Fits advance start stop s.window.size
    · have hact : s.act events (.token advance start stop) = _ := if_pos hfits
      rw [hact]
      exact ⟨rfl, Nat.le_refl _, h⟩
    · have hact : s.act events (.token advance start stop) = _ := if_neg hfits
      rw [hact]
      exact ⟨rfl, Nat.le_refl _, h⟩
  | finished => exact ⟨rfl, Nat.le_refl _, h⟩
  | needMore =>
    by_cases hEof : s.atEof = true
    · have hact : s.act events .needMore = _ := if_pos hEof
      rw [hact]
      exact ⟨rfl, Nat.le_refl _, h⟩
    · have hact : s.act events .needMore = _ := if_neg hEof
      rw [hact]
      exact ⟨rfl, Nat.le_refl _, h⟩

/-- What a question to the policy leaves: one event, if it was put. -/
theorem consult_leaves [SplitPolicy π] (s : Scanner η π) :
    s.Leaves s.consult.next s.consult.events := by
  unfold consult
  by_cases hdone : s.done = true
  · rw [if_pos hdone]
    exact ⟨rfl, Nat.le_refl _, by simp [ScanStep.events]⟩
  · rw [if_neg hdone]
    by_cases hwaits : (s.window.isEmpty && !s.atEof) = true
    · rw [if_pos hwaits]
      exact ⟨rfl, Nat.le_refl _, by simp [ScanStep.events]⟩
    · rw [if_neg hwaits]
      have hasked : ∀ e ∈ [Event.consulted s.window.size s.atEof], e.IsScanning := by
        intro e he
        rw [List.mem_singleton] at he
        rw [he]
        trivial
      -- what the policy was asked on differs from `s` in registers that `Leaves` does not name
      have hact := act_leaves
        { s with
          policy := (SplitPolicy.splitBuffered s.policy s.window s.atEof).1.2
          window := (SplitPolicy.splitBuffered s.policy s.window s.atEof).2 }
        hasked (SplitPolicy.splitBuffered s.policy s.window s.atEof).1.1
      exact ⟨hact.limit_eq, hact.capacity_le, hact.scanning⟩

/-- Growing allocates more.  The first allocation starts from nothing, and a later one doubles
    unless the limit is nearer. -/
theorem capacity_le_of_grow? {s t : Scanner η π} (h : s.grow? = some t) : s.capacity ≤ t.capacity := by
  unfold grow? at h
  split at h
  · split at h
    · simp at h
    · rename_i hlimit
      obtain rfl := Option.some.inj h
      simp only [firstCapacity]
      omega
  · obtain rfl := Option.some.inj h
    exact Nat.le_refl _

/-- What making room and reading leave.  Every read of the handle is an event of its own, those that
    were interrupted as well. -/
theorem refill_leaves [ByteSource ω η] (w : ω) (s : Scanner η π) :
    s.Leaves (s.refill w).next (s.refill w).events := by
  unfold refill
  -- a refusal has moved the window and done nothing else
  cases hgrow : s.compact.grow? with
  | none => exact ⟨compact_limit s, Nat.le_of_eq (compact_capacity s).symm, by simp [ScanStep.events]⟩
  | some t =>
    have hlimit : t.limit = s.limit := by
      rw [grow?_eq hgrow]
      exact compact_limit s
    have hoffered : ∀ e ∈ List.replicate (pull w (t.capacity - t.stop) t.handle).2
        (Event.offered (t.capacity - t.stop)), e.IsScanning := by
      intro e he
      rw [List.eq_of_mem_replicate he]
      trivial
    have hcapacity : s.capacity ≤ t.capacity := by
      rw [← compact_capacity s]
      exact capacity_le_of_grow? hgrow
    dsimp only
    cases (pull w (t.capacity - t.stop) t.handle).1 <;> exact ⟨hlimit, hcapacity, hoffered⟩

/-! ## A call

  A call is its rounds.  What each of them leaves adds up, and an error is the one of the last
  round. -/

/-- **A call leaves the limit, the buffer and a trace of reads and questions.**  By induction on
    the rounds. -/
theorem nextToken_leaves [ByteSource ω η] [SplitPolicy π] (w : ω) (s : Scanner η π) :
    s.Leaves (s.nextToken w).next (s.nextToken w).events := by
  fun_induction nextToken w s with
  | case1 s reply hconsult =>
    have hfirst := consult_leaves s
    rw [hconsult] at hfirst
    exact hfirst
  | case2 s t e₁ hconsult reply hrefill =>
    have hfirst := consult_leaves s
    have hsecond := refill_leaves w t
    rw [hconsult] at hfirst
    rw [hrefill] at hsecond
    exact hfirst.trans hsecond
  | case3 s t e₁ hconsult u e₂ hrefill ih =>
    have hfirst := consult_leaves s
    have hsecond := refill_leaves w t
    rw [hconsult] at hfirst
    rw [hrefill] at hsecond
    exact (hfirst.trans hsecond).trans ih

/-- A delimiter policy is asked without an error: what it decides lies in the window.  So of the
    errors of `ScanAnswer` only those of `refill` are left for a call. -/
theorem consult_ok {s : Scanner η Delimiter} {reply : Reply (Scanner η Delimiter) ScanAnswer}
    (h : s.consult = .settled reply) : ∃ record, reply.answer = .ok record := by
  unfold consult at h
  split at h
  · obtain rfl := ScanStep.settled.inj h
    exact ⟨none, rfl⟩
  · split at h
    · simp at h
    · have hsize : (SplitPolicy.splitBuffered s.policy s.window s.atEof).2.size = s.window.size :=
        Buffered.size_congr (SplitPolicy.splitBuffered_toList _ _ _)
      dsimp only [act] at h
      split at h
      · rename_i advance start stop hdecision
        rw [SplitPolicy.splitBuffered_decision, Delimiter.policy_split] at hdecision
        -- a delimiter is found within the window, so the check on the positions passes
        have hfits := (Delimiter.split_token hdecision).1
        rw [Buffered.length_toList] at hfits
        rw [hsize, if_pos hfits] at h
        obtain rfl := ScanStep.settled.inj h
        exact ⟨_, rfl⟩
      · obtain rfl := ScanStep.settled.inj h
        exact ⟨none, rfl⟩
      · split at h
        · obtain rfl := ScanStep.settled.inj h
          exact ⟨none, rfl⟩
        · simp at h

/-- Making room fails at the limit, and reading as the handle does. -/
theorem refill_error [ByteSource ω η] {w : ω} {s : Scanner η π}
    {reply : Reply (Scanner η π) ScanAnswer} (h : s.refill w = .settled reply) :
    reply.answer = .error (.tokenTooLarge s.limit) ∨ ∃ cause, reply.answer = .error (.io cause) := by
  unfold refill at h
  split at h
  · obtain rfl := ScanStep.settled.inj h
    exact Or.inl rfl
  · dsimp only at h
    split at h
    · simp at h
    · simp at h
    · rename_i cause next hpull
      obtain rfl := ScanStep.settled.inj h
      exact Or.inr ⟨cause, rfl⟩

/-- **The errors of a call** under a delimiter policy.  The limit that an error names is the one the
    scanner was made with, since no round changes it (`nextToken_leaves`). -/
theorem nextToken_error [ByteSource ω η] {w : ω} {s : Scanner η Delimiter} {error : FeedError}
    (h : (s.nextToken w).answer = .error error) :
    error = .tokenTooLarge s.limit ∨ ∃ cause, error = .io cause := by
  fun_induction nextToken w s with
  | case1 s reply hconsult =>
    obtain ⟨record, hrecord⟩ := consult_ok hconsult
    rw [hrecord] at h
    simp at h
  | case2 s t e₁ hconsult reply hrefill =>
    -- the error names the limit of `t`, the claim that of `s`
    have hlimit : t.limit = s.limit := by
      have hfirst := consult_leaves s
      rw [hconsult] at hfirst
      exact hfirst.limit_eq
    rw [Reply.after_answer] at h
    rcases refill_error hrefill with hlarge | ⟨cause, hcause⟩
    · rw [hlarge, hlimit] at h
      exact Or.inl (Except.error.inj h).symm
    · rw [hcause] at h
      exact Or.inr ⟨cause, (Except.error.inj h).symm⟩
  | case3 s t e₁ hconsult u e₂ hrefill ih =>
    have hlimit : u.limit = s.limit := by
      have hfirst := consult_leaves s
      have hsecond := refill_leaves w t
      rw [hconsult] at hfirst
      rw [hrefill] at hsecond
      exact (hfirst.trans hsecond).limit_eq
    rw [← hlimit]
    exact ih h

end Scanner

/-! ## Gathering a message

  Gathering makes calls and stores records.  The arena has no part in what is said here. -/

variable {ω η : Type} [ByteSource ω η]

/-- Gathering leaves the limit and a trace of reads and questions.  By induction on the records. -/
theorem gather_leaves (w : ω) (multipart : Bool) (scanner : Scanner η Delimiter) (a : Assembly) :
    scanner.Leaves (gather w multipart scanner a).next.1 (gather w multipart scanner a).events := by
  fun_induction gather w multipart scanner a with
  | case1 | case2 | case3 => exact Scanner.nextToken_leaves _ _
  | case4 scanner a reply record hanswer taken htaken ih =>
    exact (Scanner.nextToken_leaves w scanner).trans ih

/-- Gathering fails as a call does.  By induction on the records. -/
theorem gather_failed {w : ω} {multipart : Bool} {scanner : Scanner η Delimiter} {a : Assembly}
    {error : FeedError} (h : (gather w multipart scanner a).answer = .failed error) :
    error = .tokenTooLarge scanner.limit ∨ ∃ cause, error = .io cause := by
  fun_induction gather w multipart scanner a with
  | case1 scanner a reply error' hanswer =>
    obtain rfl := Ending.failed.inj h
    exact Scanner.nextToken_error hanswer
  | case2 | case3 => simp at h
  | case4 scanner a reply record hanswer taken htaken ih =>
    have hlimit : reply.next.limit = scanner.limit := (Scanner.nextToken_leaves w scanner).limit_eq
    rw [← hlimit]
    exact ih h

end RecordFeed
