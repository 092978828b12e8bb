/-
  A scanner between two calls.

  The window may grow to the limit while a record is looked for.  A call that found one has taken it
  away, together with a delimiter or with all that was left of the stream, and what remains in the
  window is below the limit.  So if the handle gives no more bytes from then on, none of the records
  still in the window is too large.

  * `Runs`    what holds of a scanner that goes on, also within a call;
  * `Rests`   what holds of it between two calls (`nextToken_rests`), in whatever surroundings the
              calls are made;
  * `Silent`  surroundings in which every read says that the stream is over.  There a scanner at
              rest gives the records of its window and no others (`Rests.drain_eq`).
-/
import RecordFeed.Proofs.Records.Scanning

namespace RecordFeed

/-- Every read of a handle says that its stream is over. -/
def Silent {ω : Type} (η : Type) [ByteSource ω η] (w : ω) : Prop :=
  ∀ (h : η) (room : Nat), ∃ next, ByteSource.read w h room = .ended next

/-- In silent surroundings a handle delivers nothing. -/
theorem Silent.delivers {ω η : Type} [ByteSource ω η] {w : ω} (hw : Silent η w) (h : η) :
    Delivers w h [] .over := by
  refine .intro ?_ ?_ ?_ (fun _ _ => ⟨rfl, rfl⟩) ?_
  all_goals
    intro room
    obtain ⟨next, hread⟩ := hw h room
    simp [hread]

/-- A switch that was thrown silences all scripted streams. -/
theorem Switch.silent {w : Switch} (hw : w.thrown ≠ 0) : Silent Script w :=
  fun s _ => ⟨s, if_neg hw⟩

namespace Scanner

variable {ω η : Type} {delimiter : Bytes} {limit : Nat}

/-- A scanner under a delimiter and a limit that has not come to an end. -/
structure Runs (delimiter : Bytes) (limit : Nat) (s : Scanner η Delimiter) : Prop where
  policy_eq : s.policy = ⟨delimiter⟩
  limit_eq : s.limit = limit
  running : s.done = false
  sound : s.Sound

/-- The same between two calls, with a window below the limit. -/
structure Rests (delimiter : Bytes) (limit : Nat) (s : Scanner η Delimiter) : Prop
    extends Runs delimiter limit s where
  size_lt : s.window.size < limit

/-- A fresh scanner has an empty window. -/
theorem rests_fresh (hpos : 0 < limit) (handle : η) :
    (fresh handle ⟨delimiter⟩ limit).Rests delimiter limit where
  policy_eq := rfl
  limit_eq := rfl
  running := rfl
  sound := sound_start ..
  size_lt := hpos

/-! ## One call

  Between two calls the window is short, and in the middle of one it need not be.  So there are
  two conditions, and each step of the loop keeps the weaker one or gives the stronger one
  back. -/

/-- A record leaves a scanner at rest, and a step that settles nothing one that runs.  This is what
    the two steps of the loop are shown to keep, so that the call can be followed by its own
    recursion. -/
def Carries (delimiter : Bytes) (limit : Nat) : ScanStep η Delimiter → Prop
  | .settled reply => ∀ record, reply.answer = .ok (some record) → reply.next.Rests delimiter limit
  | .onward t _ => t.Runs delimiter limit

/-- Every record takes something out of the window. -/
theorem Runs.act {s : Scanner η Delimiter} (h : s.Runs delimiter limit) (events : List Event) :
    Carries delimiter limit
      (s.act events (Delimiter.split ⟨delimiter⟩ s.window.toList s.atEof)) := by
  cases hdecision : Delimiter.split ⟨delimiter⟩ s.window.toList s.atEof with
  | token advance start stop =>
    obtain ⟨hfits, -, hpos⟩ := Delimiter.split_token hdecision
    rw [Buffered.length_toList] at hfits
    have hsize : s.window.size ≤ limit := h.limit_eq ▸ h.sound.size_le
    have hle : advance ≤ s.window.size := hfits.1
    -- the window was at most at the limit, and a record takes at least its delimiter out of it
    have hact : s.act events (.token advance start stop) = .settled _ := if_pos hfits
    rw [hact]
    intro record _
    refine ⟨⟨h.policy_eq, h.limit_eq, h.running, h.sound.consume hle⟩, ?_⟩
    simp only [Buffered.size_drop]
    omega
  | finished =>
    -- here and below the answer is no record, so there is nothing to show
    intro record hrecord
    simp at hrecord
  | needMore =>
    cases hEof : s.atEof with
    | false =>
      have hact : s.act events .needMore = .onward s events := by simp [Scanner.act, hEof]
      rw [hact]
      exact h
    | true =>
      have hact : s.act events .needMore = .settled _ := if_pos hEof
      rw [hact]
      intro record hrecord
      simp at hrecord

/-- A question to the policy keeps a running scanner running.  One that has an empty window and an
    open stream puts none. -/
theorem Runs.consult {s : Scanner η Delimiter} (h : s.Runs delimiter limit) :
    Carries delimiter limit s.consult := by
  cases hshown : s.window.isEmpty && !s.atEof with
  | true =>
    have hconsult : s.consult = .onward s [] := by
      rw [Scanner.consult, h.running, hshown]
      rfl
    rw [hconsult]
    exact h
  | false =>
    -- the policy may lay the window out anew, but it holds the same bytes
    obtain ⟨window, events, hsame, hconsult⟩ := exists_consult_eq h.policy_eq h.running hshown
    have ht : ({ s with window } : Scanner η Delimiter).Runs delimiter limit :=
      ⟨h.policy_eq, h.limit_eq, h.running, h.sound.of_toList_eq hsame⟩
    rw [hconsult]
    exact ht.act events

/-- Only an open stream leaves the policy without an answer. -/
theorem atEof_of_consult {s t : Scanner η Delimiter} {events : List Event}
    (h : s.consult = .onward t events) : t.atEof = false := by
  obtain ⟨hopen, ht, -⟩ := consult_onward h
  rw [ht]
  exact hopen

variable [ByteSource ω η] {w : ω}

/-- A refill settles no call with a record. -/
theorem Runs.refill {s : Scanner η Delimiter} (h : s.Runs delimiter limit)
    (hopen : s.atEof = false) : Carries delimiter limit (s.refill w) := by
  cases hgrow : s.compact.grow? with
  | none =>
    rw [Scanner.refill, hgrow]
    -- a full buffer is an error and not a record
    intro record hrecord
    simp at hrecord
  | some u =>
    obtain ⟨events, hrefill⟩ := exists_refill_eq (w := w) hgrow
    have hu : u.policy = s.policy ∧ u.limit = s.limit ∧ u.done = s.done := by
      rw [eq_of_grow? hgrow]
      exact ⟨rfl, rfl, rfl⟩
    obtain ⟨hpolicy, hlimit, hdone⟩ := hu
    cases hpull : (pull w (u.capacity - u.stop) u.handle).1 with
    | data piece next | ended next =>
      rw [hpull] at hrefill
      rw [hrefill]
      exact ⟨hpolicy.trans h.policy_eq, hlimit.trans h.limit_eq, hdone.trans h.running,
        h.sound.refill hopen hrefill⟩
    | failed error next =>
      rw [hpull] at hrefill
      rw [hrefill]
      -- so is a failed read
      intro record hrecord
      simp at hrecord

/-- **A record leaves the scanner at rest.** By induction on the rounds of the loop: a round that
    settles the call ends at rest, and one that goes on leaves the scanner running for the next. -/
theorem nextToken_rests {s : Scanner η Delimiter} (h : s.Runs delimiter limit) {record : Bytes}
    (hrecord : (s.nextToken w).answer = .ok (some record)) :
    (s.nextToken w).next.Rests delimiter limit := by
  fun_induction nextToken w s with
  | case1 s reply hconsult =>
    have hcarries := h.consult
    rw [hconsult] at hcarries
    exact hcarries record hrecord
  | case2 s t e₁ hconsult reply hrefill =>
    have ht := h.consult
    rw [hconsult] at ht
    have hcarries := Runs.refill (w := w) ht (atEof_of_consult hconsult)
    rw [hrefill] at hcarries
    exact hcarries record hrecord
  | case3 s t e₁ hconsult u e₂ hrefill ih =>
    have ht := h.consult
    rw [hconsult] at ht
    have hu := Runs.refill (w := w) ht (atEof_of_consult hconsult)
    rw [hrefill] at hu
    exact ih hu hrecord

/-! ## In silent surroundings

  A switch that was thrown makes every later read the end of the stream.  What is left to be
  read is then in the window, and the limit cannot be met any more. -/

/-- What the bytes of the window make, taken as a whole stream.  It is the reference cut with the
    end of the stream behind it. -/
def remainder (s : Scanner η Delimiter) : Scan :=
  cut s.policy.bytes s.limit .over s.window.toList

/-- A scanner at rest faces the bytes of its window. -/
theorem Rests.faces {s : Scanner η Delimiter} (h : s.Rests delimiter limit) (hw : Silent η w) :
    s.Faces w delimiter limit s.window.toList .over := by
  refine ⟨h.policy_eq, h.limit_eq, h.running, h.sound, ?_⟩
  -- whether the end was already seen, or comes with the next read
  cases hEof : s.atEof with
  | true => exact .seen hEof
  | false =>
    have hcoming := Ahead.coming hEof (hw.delivers s.handle)
    rwa [List.append_nil] at hcoming

/-- **A scanner at rest gives what its window holds**, and nothing else. -/
theorem Rests.drain_eq {s : Scanner η Delimiter} (h : s.Rests delimiter limit)
    (hw : Silent η w) : s.drain w = s.remainder := by
  rw [drain_of_faces (h.faces hw), remainder, h.policy_eq, h.limit_eq]

omit [ByteSource ω η] in
/-- No record of the window of a scanner at rest is too large. -/
theorem Rests.remainder_outcome {s : Scanner η Delimiter} (h : s.Rests delimiter limit) :
    s.remainder.outcome = .ok () := by
  refine cut_outcome_of_lt ?_
  rw [Buffered.length_toList, h.limit_eq]
  exact h.size_lt

end Scanner

end RecordFeed
