/-
  Scanning a stream gives its records, however the stream arrives.

  The window of a scanner is compacted, grown and refilled at points that depend on the sizes of
  the reads.  None of this shows in what the scanner answers.

  1. **The buffer** (`Sound`).  The window lies in the buffer, the buffer never exceeds the limit,
     and the end of the stream is only seen through free room, so that a window at the end of the
     stream is shorter than the limit.  Making room fails just when the window itself has reached
     the limit (`limit_le_of_grow?`), for compacting comes first.

  2. **What is ahead** (`Faces`).  The window, followed by what the handle still delivers, are the
     bytes that were not yet consumed.  Each of the two steps of the loop either settles the call as
     the first cut of these bytes says (`Answers`), or leaves a scanner that faces the same bytes.

  3. **The crux** is that the policy sees the window only.  A delimiter in the window is the first
     one in all the bytes (`firstCut_of_found`), and a full window without one is enough to tell
     that the first record is too large (`firstCut_of_full`).
-/
import RecordFeed.Proofs.Records.Delivery

namespace RecordFeed

/-! ## The policy

  What the delimiter policy decides, in the three cases that matter to a scan. -/

namespace Delimiter

variable {d : Delimiter} {window : Bytes} {atEof : Bool} {i : Nat}

/-- The first delimiter ends a record.  That the window may be empty at the end of the stream does
    not come in between: what stands in it makes it longer than nothing. -/
theorem split_of_found (h : Bytes.firstAt? d.bytes window = some i) :
    d.split window atEof = .token (i + d.bytes.length) 0 i := by
  have hlt := (Bytes.firstAt?_eq_some_iff.mp h).1.lt_length
  have hopen : ¬ (atEof && window.length == 0) = true := by
    rw [beq_eq_false_iff_ne.mpr (by omega), Bool.and_false]
    exact Bool.false_ne_true
  rw [split, Bytes.offset?_eq_firstAt?, h, decision, if_neg hopen]

/-- Without a delimiter, a window of an open stream has to grow. -/
theorem split_of_open (h : Bytes.firstAt? d.bytes window = none) :
    d.split window false = .needMore := by
  rw [split, Bytes.offset?_eq_firstAt?, h]
  rfl

/-- Without a delimiter, what is left at the end of the stream is a record. -/
theorem split_of_rest (h : Bytes.firstAt? d.bytes window = none) (hne : window ≠ []) :
    d.split window true = .token window.length 0 window.length := by
  have hrest : ¬ (true && window.length == 0) = true := by simpa using hne
  rw [split, Bytes.offset?_eq_firstAt?, h]
  exact if_neg hrest

/-- Nothing is left at the end of the stream. -/
theorem split_nil_true : d.split [] true = .finished := rfl

end Delimiter

namespace Scanner

variable {ω η π : Type}

/-! ## The buffer

  The scan knows nothing of the places and sizes in a buffer but this: how long a window can
  be, and when there is no more room. -/

/-- The window lies in the buffer and the buffer within the limit; a window at the end of the stream
    is below the limit.  The third bound is what tells the last record from one that is too large:
    the end is seen by a read, and a read needs room. -/
structure Sound (s : Scanner η π) : Prop where
  stop_le : s.stop ≤ s.capacity
  capacity_le : s.capacity ≤ s.limit
  size_lt : s.atEof = true → s.window.size < s.limit

/-- The window never exceeds the limit. -/
theorem Sound.size_le {s : Scanner η π} (h : s.Sound) : s.window.size ≤ s.limit := by
  have hstop := h.stop_le
  have hcapacity := h.capacity_le
  rw [stop] at hstop
  omega

/-- A scanner with nothing read and nothing allocated is sound. -/
theorem sound_start (handle : η) (policy : π) (limit : Nat) :
    (fresh handle policy limit).Sound where
  stop_le := Nat.le_refl 0
  capacity_le := Nat.zero_le limit
  size_lt h := by simp [fresh] at h

/-- A buffer that holds the same bytes in another way is as sound. -/
theorem Sound.of_toList_eq {s : Scanner η π} (h : s.Sound) {window : Buffered}
    (hsame : window.toList = s.window.toList) : ({ s with window } : Scanner η π).Sound := by
  have hsize := Buffered.size_congr hsame
  refine ⟨?_, h.capacity_le, fun hEof => ?_⟩
  · simp only [stop, hsize]
    exact h.stop_le
  · rw [hsize]
    exact h.size_lt hEof

/-- Consuming what lies in the window keeps the buffer sound. -/
theorem Sound.consume {s : Scanner η π} (h : s.Sound) {advance : Nat}
    (hle : advance ≤ s.window.size) :
    ({ s with window := s.window.drop advance, start := s.start + advance } : Scanner η π).Sound where
  stop_le := by
    have := h.stop_le
    simp only [stop, Buffered.size_drop] at this ⊢
    omega
  capacity_le := h.capacity_le
  size_lt hEof := by
    have := h.size_lt hEof
    simp only [Buffered.size_drop]
    omega

/-- Compacting leaves nothing unused in front of a window that ends where the buffer ends.  Such a
    window is compacted whatever the room before it, unless there is none. -/
theorem compact_start_eq_zero {s : Scanner η π} (h : s.compact.stop = s.compact.capacity) :
    s.compact.start = 0 := by
  unfold compact at h ⊢
  split
  · rfl
  · rename_i hkept
    rw [if_neg hkept] at h
    rcases Nat.eq_zero_or_pos s.start with hzero | hpos
    · exact hzero
    · exact absurd ⟨hpos, Or.inl h⟩ hkept

/-- Moving the window to the front moves its end as well. -/
theorem compact_stop_le (s : Scanner η π) : s.compact.stop ≤ s.stop := by
  unfold compact
  split
  · simp [stop]
  · exact Nat.le_refl _

/-- **Room is refused only to a window at the limit.** The buffer is at the limit, and after
    compacting the window fills it from the very front. -/
theorem limit_le_of_grow? {s : Scanner η π} (h : s.compact.grow? = none) :
    s.limit ≤ s.window.size := by
  unfold grow? at h
  split at h
  · rename_i hend
    split at h
    · rename_i hlimit
      -- a window that ends with the buffer begins with it
      have hstart := compact_start_eq_zero hend
      rw [stop, hstart, compact_window, Nat.zero_add] at hend
      rw [compact_limit] at hlimit
      omega
    · simp at h
  · simp at h

/-- Making room touches nothing but the place of the window and the size of the buffer. -/
theorem eq_of_grow? {s t : Scanner η π} (h : s.compact.grow? = some t) :
    t = { s with start := t.start, capacity := t.capacity } := by
  have hgrow := grow?_eq h
  rw [compact_eq] at hgrow
  rw [hgrow]

/-- Room that was made is behind the window and within the limit.  If the window ended where the
    buffer did, the buffer has become longer, and else nothing has changed. -/
theorem stop_lt_of_grow? {s t : Scanner η π} (hs : s.Sound) (h : s.compact.grow? = some t) :
    t.stop < t.capacity ∧ t.capacity ≤ t.limit := by
  have hstop : s.compact.stop ≤ s.compact.capacity := by
    rw [compact_capacity]
    exact Nat.le_trans (compact_stop_le s) hs.stop_le
  have hcapacity : s.compact.capacity ≤ s.compact.limit := by
    rw [compact_capacity, compact_limit]
    exact hs.capacity_le
  unfold grow? at h
  split at h
  · rename_i hend
    split at h
    · simp at h
    · obtain rfl := Option.some.inj h
      simp only [stop, firstCapacity] at hend ⊢
      omega
  · obtain rfl := Option.some.inj h
    exact ⟨by omega, hcapacity⟩

variable [ByteSource ω η] {w : ω}

/-- Bytes read into the room behind the window keep the buffer sound.  Bytes are no more than the
    room, and the end is seen only with room left. -/
theorem Sound.refill {s t : Scanner η π} {events : List Event} (hs : s.Sound)
    (hopen : s.atEof = false) (h : s.refill w = .onward t events) : t.Sound := by
  unfold Scanner.refill at h
  split at h
  · simp at h
  · rename_i u hgrow
    obtain ⟨hroom, hlimit⟩ := stop_lt_of_grow? hs hgrow
    have hEof : u.atEof = false := by rw [eq_of_grow? hgrow]; exact hopen
    simp only at h
    split at h
    · -- bytes came: the window is longer by no more than the room
      rename_i piece next hpull
      obtain ⟨-, hfits, -⟩ := pull_data hpull
      obtain ⟨rfl, -⟩ := ScanStep.onward.inj h
      refine ⟨?_, hlimit, fun hclosed => ?_⟩
      · simp only [stop, Buffered.size_append] at hfits hroom ⊢
        omega
      · simp [hEof] at hclosed
    · obtain ⟨rfl, -⟩ := ScanStep.onward.inj h
      -- the end came: the room was not filled, so the window is below the limit
      refine ⟨Nat.le_of_lt hroom, hlimit, fun _ => ?_⟩
      simp only [stop] at hroom ⊢
      omega
    · simp at h

/-! ## What is ahead

  The bytes ahead are divided between the window and the handle, and every read moves some of
  them over.  What is said of them together does not notice. -/

/-- The bytes that were not yet consumed: those of the window, and those that the handle still
    delivers, unless the end of the stream was seen.  The bytes are those of the reference; how they
    are parted between the window and the handle is what scanning changes. -/
inductive Ahead (w : ω) (s : Scanner η π) : Bytes → StreamEnd → Prop where
  | coming {rest : Bytes} {ending : StreamEnd} (hopen : s.atEof = false)
      (hdelivers : Delivers w s.handle rest ending) : Ahead w s (s.window.toList ++ rest) ending
  | seen (hEof : s.atEof = true) : Ahead w s s.window.toList .over

/-- The window shows what the bytes ahead begin with. -/
theorem Ahead.window_prefix {s : Scanner η π} {bytes : Bytes} {ending : StreamEnd}
    (h : s.Ahead w bytes ending) : s.window.toList <+: bytes := by
  cases h with
  | coming => exact List.prefix_append _ _
  | seen => exact List.prefix_rfl

/-- After the end of the stream, the window is all. -/
theorem Ahead.eq_window {s : Scanner η π} {bytes : Bytes} {ending : StreamEnd}
    (h : s.Ahead w bytes ending) (hEof : s.atEof = true) :
    bytes = s.window.toList ∧ ending = .over := by
  cases h with
  | coming hopen => simp [hopen] at hEof
  | seen => exact ⟨rfl, rfl⟩

/-- A scanner under a delimiter and a limit that has these bytes of a stream ahead. -/
structure Faces (w : ω) (delimiter : Bytes) (limit : Nat) (bytes : Bytes) (ending : StreamEnd)
    (s : Scanner η Delimiter) : Prop where
  policy_eq : s.policy = ⟨delimiter⟩
  limit_eq : s.limit = limit
  running : s.done = false
  sound : s.Sound
  ahead : s.Ahead w bytes ending

/-- A call is settled as a cut says: with the record and a scanner that faces the rest, or with the
    reason why there is none. -/
def Answers (w : ω) (delimiter : Bytes) (limit : Nat) (ending : StreamEnd)
    (reply : Reply (Scanner η Delimiter) ScanAnswer) : Cut → Prop
  | .record record rest =>
    reply.answer = .ok (some record) ∧ reply.next.Faces w delimiter limit rest ending
  | .stop outcome => reply.answer = outcome.map fun _ => none

variable {delimiter : Bytes} {limit : Nat} {bytes : Bytes} {ending : StreamEnd}

/-- A fresh scanner faces all that its handle delivers. -/
theorem faces_start {handle : η} (h : Delivers w handle bytes ending) :
    Faces w delimiter limit bytes ending (fresh handle ⟨delimiter⟩ limit) where
  policy_eq := rfl
  limit_eq := rfl
  running := rfl
  sound := sound_start ..
  ahead := .coming rfl h

/-- Consuming what lies in the window leaves the rest of the bytes ahead. -/
theorem Faces.consume {s : Scanner η Delimiter} (h : s.Faces w delimiter limit bytes ending)
    {advance : Nat} (hle : advance ≤ s.window.size) :
    ({ s with window := s.window.drop advance, start := s.start + advance } :
      Scanner η Delimiter).Faces w delimiter limit (bytes.drop advance) ending := by
  refine ⟨h.policy_eq, h.limit_eq, h.running, h.sound.consume hle, ?_⟩
  cases h.ahead with
  | coming hopen hdelivers =>
    rw [List.drop_append_of_le_length (by rw [Buffered.length_toList]; exact hle),
      ← Buffered.toList_drop]
    exact .coming hopen hdelivers
  | seen hEof =>
    rw [← Buffered.toList_drop]
    exact .seen hEof

/-- A buffer that holds the same bytes in another way leaves the same bytes ahead. -/
theorem Faces.of_toList_eq {s : Scanner η Delimiter} (h : s.Faces w delimiter limit bytes ending)
    {window : Buffered} (hsame : window.toList = s.window.toList) :
    ({ s with window } : Scanner η Delimiter).Faces w delimiter limit bytes ending := by
  refine ⟨h.policy_eq, h.limit_eq, h.running, h.sound.of_toList_eq hsame, ?_⟩
  cases h.ahead with
  | coming hopen hdelivers =>
    rw [← hsame]
    exact .coming hopen hdelivers
  | seen hEof =>
    rw [← hsame]
    exact .seen hEof

/-- Making room leaves the same bytes ahead. -/
theorem Faces.make_room {s t : Scanner η Delimiter} (h : s.Faces w delimiter limit bytes ending)
    (hgrow : s.compact.grow? = some t) : t.Faces w delimiter limit bytes ending := by
  obtain ⟨hroom, hcapacity⟩ := stop_lt_of_grow? h.sound hgrow
  have hsound : t.Sound := by
    refine ⟨Nat.le_of_lt hroom, hcapacity, ?_⟩
    rw [eq_of_grow? hgrow]
    exact h.sound.size_lt
  rw [eq_of_grow? hgrow] at hsound ⊢
  refine ⟨h.policy_eq, h.limit_eq, h.running, hsound, ?_⟩
  cases h.ahead with
  | coming hopen hdelivers => exact .coming hopen hdelivers
  | seen hEof => exact .seen hEof

/-! ## Acting on a decision

  Every decision about the window is held against the first cut of all the bytes ahead, most of
  which the policy cannot see. -/

/-- A delimiter in the window settles the call with the record before it. -/
theorem answers_of_found {s : Scanner η Delimiter} {events : List Event} {i : Nat}
    (h : s.Faces w delimiter limit bytes ending)
    (hi : Bytes.firstAt? delimiter s.window.toList = some i) :
    ∃ reply, s.act events (.token (i + delimiter.length) 0 i) = .settled reply ∧
      Answers w delimiter limit ending reply (firstCut delimiter limit ending bytes) := by
  have hend := (Bytes.firstAt?_eq_some_iff.mp hi).1.add_length_le
  have hlimit := h.limit_eq ▸ h.sound.size_le
  rw [Buffered.length_toList] at hend
  have hfits : Split.Fits (i + delimiter.length) 0 i s.window.size :=
    ⟨hend, Nat.zero_le i, Nat.le_add_right i _⟩
  -- the cut is inside the window, so nothing is refused
  refine ⟨_, if_pos hfits, ?_⟩
  rw [firstCut_of_found h.ahead.window_prefix (by rw [Buffered.length_toList]; exact hlimit) hi]
  refine ⟨?_, h.consume hend⟩
  rw [Buffered.slice_eq, List.drop_zero]

/-- At the end of the stream, what is left without a delimiter is the last record. -/
theorem answers_of_rest {s : Scanner η Delimiter} {events : List Event}
    (h : s.Faces w delimiter limit bytes ending) (hEof : s.atEof = true)
    (hvain : Bytes.firstAt? delimiter s.window.toList = none) (hne : s.window.toList ≠ []) :
    ∃ reply, s.act events (.token s.window.size 0 s.window.size) = .settled reply ∧
      Answers w delimiter limit ending reply (firstCut delimiter limit ending bytes) := by
  obtain ⟨rfl, rfl⟩ := h.ahead.eq_window hEof
  have hlimit := h.limit_eq ▸ h.sound.size_lt hEof
  have hfits : Split.Fits s.window.size 0 s.window.size s.window.size :=
    ⟨Nat.le_refl _, Nat.zero_le _, Nat.le_refl _⟩
  have hbelow : s.window.toList.length < limit := by rw [Buffered.length_toList]; exact hlimit
  have hcut := firstCut_of_rest hvain hne hbelow
  refine ⟨_, if_pos hfits, ?_⟩
  rw [hcut]
  refine ⟨?_, ?_⟩
  · rw [Buffered.slice_eq, List.drop_zero, ← Buffered.length_toList, List.take_length]
  · -- all of the window is consumed, and nothing is ahead any more
    have hnext := h.consume (Nat.le_refl s.window.size)
    rwa [← Buffered.length_toList, List.drop_length, Buffered.length_toList] at hnext

/-- **Acting on the decision of the policy** settles the call as the first cut says; or the
    stream is open, its window shows no delimiter, and all is left as it was. -/
theorem act_spec {s : Scanner η Delimiter} {events : List Event}
    (h : s.Faces w delimiter limit bytes ending) :
    (∃ reply,
      s.act events (Delimiter.split ⟨delimiter⟩ s.window.toList s.atEof) = .settled reply ∧
        Answers w delimiter limit ending reply (firstCut delimiter limit ending bytes)) ∨
    (s.act events (Delimiter.split ⟨delimiter⟩ s.window.toList s.atEof) = .onward s events ∧
      s.atEof = false ∧ Bytes.firstAt? delimiter s.window.toList = none) := by
  cases hfound : Bytes.firstAt? delimiter s.window.toList with
  | some i =>
    rw [Delimiter.split_of_found hfound]
    exact Or.inl (answers_of_found h hfound)
  | none =>
    cases hEof : s.atEof with
    | false =>
      rw [Delimiter.split_of_open hfound]
      exact Or.inr ⟨by simp [act, hEof], rfl, rfl⟩
    | true =>
      by_cases hnil : s.window.toList = []
      · -- the stream is over and nothing is left
        obtain ⟨rfl, rfl⟩ := h.ahead.eq_window hEof
        have hlimit := h.limit_eq ▸ h.sound.size_lt hEof
        rw [hnil, Delimiter.split_nil_true]
        refine Or.inl ⟨_, rfl, ?_⟩
        rw [firstCut_of_none (Bytes.firstAt?_nil_right _), lastCut, if_neg (by simp; omega)]
        rfl
      · rw [Delimiter.split_of_rest hfound hnil, Buffered.length_toList]
        exact Or.inl (answers_of_rest h hEof hfound hnil)

/-! ## The two steps of the loop

  Both steps have the same statement: the call is settled as the first cut says, or the same
  bytes are ahead.  So they can take turns as often as they like. -/

/-- The policy looks for its delimiter in the buffer, which remembers the search and holds the same
    bytes after it. -/
theorem exists_consult_eq {s : Scanner η Delimiter} (hpolicy : s.policy = ⟨delimiter⟩)
    (hrunning : s.done = false) (hshown : (s.window.isEmpty && !s.atEof) = false) :
    ∃ (window : Buffered) (events : List Event), window.toList = s.window.toList ∧
      s.consult = ({ s with window } : Scanner η Delimiter).act events
        (Delimiter.split ⟨delimiter⟩ window.toList s.atEof) := by
  have hsame := Buffered.toList_search s.policy.bytes s.window
  have hdecision : s.policy.decision (s.window.search s.policy.bytes).1 s.window.size s.atEof =
      s.policy.split s.window.toList s.atEof := by
    rw [Delimiter.split, Buffered.search_found, Buffered.length_toList]
  refine ⟨_, [.consulted s.window.size s.atEof], hsame, ?_⟩
  rw [consult, hrunning, hshown]
  simp only [hsame, ← hpolicy, ← hdecision]
  rfl

/-- **Consulting the policy** settles the call as the first cut says, or leaves an open stream whose
    window shows no delimiter.  It is not consulted about an empty window of an open stream, and
    there a delimiter stands nowhere either. -/
theorem consult_spec {s : Scanner η Delimiter} (h : s.Faces w delimiter limit bytes ending) :
    (∃ reply, s.consult = .settled reply ∧
      Answers w delimiter limit ending reply (firstCut delimiter limit ending bytes)) ∨
    (∃ t events, s.consult = .onward t events ∧ t.Faces w delimiter limit bytes ending ∧
      t.atEof = false ∧ Bytes.firstAt? delimiter t.window.toList = none) := by
  cases hshown : s.window.isEmpty && !s.atEof with
  | true =>
    -- nothing has come yet, and something still may
    obtain ⟨hempty, hopen⟩ := (Bool.and_eq_true _ _).mp hshown
    refine Or.inr ⟨s, [], ?_, h, by simpa using hopen, ?_⟩
    · rw [consult, h.running, hshown]
      rfl
    · rw [Buffered.isEmpty_eq, List.isEmpty_iff] at hempty
      rw [hempty, Bytes.firstAt?_nil_right]
  | false =>
    obtain ⟨window, events, hsame, hconsult⟩ := exists_consult_eq h.policy_eq h.running hshown
    have ht := h.of_toList_eq hsame
    rw [hconsult]
    rcases act_spec ht with hsettled | ⟨honward, hopen, hvain⟩
    · exact Or.inl hsettled
    · exact Or.inr ⟨_, events, honward, ht, hopen, hvain⟩

/-- With room made, the handle is read into it. -/
theorem exists_refill_eq {s t : Scanner η π} (hgrow : s.compact.grow? = some t) :
    ∃ events, s.refill w =
      match (pull w (t.capacity - t.stop) t.handle).1 with
      | .data piece next => .onward { t with handle := next, window := t.window.append piece } events
      | .ended next => .onward { t with handle := next, atEof := true } events
      | .failed error next =>
        .settled
          { answer := .error (.io error), next := { t with handle := next, done := true }, events } := by
  refine ⟨List.replicate (pull w (t.capacity - t.stop) t.handle).2
    (.offered (t.capacity - t.stop)), ?_⟩
  cases hpull : (pull w (t.capacity - t.stop) t.handle).1 <;> simp only [refill, hgrow, hpull]

/-- **Refilling a window without a delimiter** settles the call as the first cut says, or leaves the
    same bytes ahead. -/
theorem refill_spec {s : Scanner η Delimiter} (h : s.Faces w delimiter limit bytes ending)
    (hopen : s.atEof = false) (hvain : Bytes.firstAt? delimiter s.window.toList = none) :
    (∃ reply, s.refill w = .settled reply ∧
      Answers w delimiter limit ending reply (firstCut delimiter limit ending bytes)) ∨
    (∃ t events, s.refill w = .onward t events ∧ t.Faces w delimiter limit bytes ending) := by
  cases hgrow : s.compact.grow? with
  | none =>
    -- the window has reached the limit
    have hfull := h.limit_eq ▸ limit_le_of_grow? hgrow
    refine Or.inl ⟨_, by rw [refill, hgrow], ?_⟩
    rw [firstCut_of_full h.ahead.window_prefix (by rw [Buffered.length_toList]; exact hfull)
      hvain, h.limit_eq]
    rfl
  | some u =>
    have hu := h.make_room hgrow
    have hroom := (stop_lt_of_grow? h.sound hgrow).1
    have hEof : u.atEof = false := by rw [eq_of_grow? hgrow]; exact hopen
    have hwindow : u.window = s.window := by rw [eq_of_grow? hgrow]
    -- there is room, so the window has not reached the limit
    have hbelow : s.window.size < limit := by
      have hcapacity := hu.limit_eq ▸ hu.sound.capacity_le
      rw [stop, hwindow] at hroom
      omega
    -- the stream is open, so what is ahead is the window and what the handle delivers
    obtain ⟨rest, rfl, hdelivers⟩ : ∃ rest, bytes = u.window.toList ++ rest ∧
        Delivers w u.handle rest ending := by
      cases hu.ahead with
      | coming _ hdelivers => exact ⟨_, rfl, hdelivers⟩
      | seen hclosed => simp [hEof] at hclosed
    have hleaves := pull_leaves (Nat.sub_pos_of_lt hroom) hdelivers
    obtain ⟨events, hrefill⟩ := exists_refill_eq (w := w) hgrow
    cases hpull : (pull w (u.capacity - u.stop) u.handle).1 with
    | data piece next =>
      rw [hpull] at hleaves hrefill
      -- the piece moves from what is delivered into the window
      obtain ⟨⟨later, rfl⟩, hlater⟩ := hleaves
      rw [List.drop_left] at hlater
      refine Or.inr ⟨_, _, hrefill, hu.policy_eq, hu.limit_eq, hu.running,
        h.sound.refill hopen hrefill, ?_⟩
      rw [← List.append_assoc, ← Buffered.toList_append]
      exact .coming hEof hlater
    | ended next =>
      rw [hpull] at hleaves hrefill
      -- nothing more is delivered: the window is all, and its end was seen
      obtain ⟨rfl, rfl⟩ := hleaves
      refine Or.inr ⟨_, _, hrefill, hu.policy_eq, hu.limit_eq, hu.running,
        h.sound.refill hopen hrefill, ?_⟩
      rw [List.append_nil]
      exact .seen rfl
    | failed error next =>
      rw [hpull] at hleaves hrefill
      -- nothing more is delivered, and the failure is what the last cut says
      obtain ⟨rfl, rfl⟩ := hleaves
      refine Or.inl ⟨_, hrefill, ?_⟩
      rw [List.append_nil, hwindow, firstCut_of_none hvain, lastCut,
        if_neg (by rw [Buffered.length_toList]; omega)]
      rfl

/-! ## A whole scan

  A call gives what the first cut takes, and leaves the rest ahead.  The reference goes on with
  the rest as the scan goes on with the scanner. -/

/-- Events that come before a reply change neither its answer nor what it leaves. -/
theorem Answers.after {reply : Reply (Scanner η Delimiter) ScanAnswer} {cut : Cut}
    (h : Answers w delimiter limit ending reply cut) (events : List Event) :
    Answers w delimiter limit ending (reply.after events) cut := by
  cases cut with
  | record record rest => exact h
  | stop outcome => exact h

/-- **One call** is settled as the first cut of the bytes ahead says.  By induction on the rounds of
    the loop: each of them leaves the same bytes ahead. -/
theorem nextToken_spec {s : Scanner η Delimiter} (h : s.Faces w delimiter limit bytes ending) :
    Answers w delimiter limit ending (s.nextToken w) (firstCut delimiter limit ending bytes) := by
  fun_induction nextToken w s with
  | case1 s reply hconsult =>
    -- the policy has settled the call
    rcases consult_spec h with ⟨reply', hsettled, hanswers⟩ | ⟨t, events, honward, -⟩
    · obtain rfl := ScanStep.settled.inj (hconsult.symm.trans hsettled)
      exact hanswers
    · simp [hconsult] at honward
  | case2 s t e₁ hconsult reply hrefill =>
    rcases consult_spec h with ⟨reply', hsettled, -⟩ | ⟨t', events, honward, ht, hopen, hvain⟩
    · simp [hconsult] at hsettled
    · obtain ⟨rfl, -⟩ := ScanStep.onward.inj (hconsult.symm.trans honward)
      -- the policy has asked for more, and reading has settled the call
      rcases refill_spec ht hopen hvain with ⟨reply', hsettled, hanswers⟩ | ⟨u, e₂, honward, -⟩
      · obtain rfl := ScanStep.settled.inj (hrefill.symm.trans hsettled)
        exact hanswers.after e₁
      · simp [hrefill] at honward
  | case3 s t e₁ hconsult u e₂ hrefill ih =>
    rcases consult_spec h with ⟨reply', hsettled, -⟩ | ⟨t', events, honward, ht, hopen, hvain⟩
    · simp [hconsult] at hsettled
    · obtain ⟨rfl, -⟩ := ScanStep.onward.inj (hconsult.symm.trans honward)
      -- neither has: the loop goes round once more, and faces the same bytes
      rcases refill_spec ht hopen hvain with ⟨reply', hsettled, -⟩ | ⟨u', events', honward, hu⟩
      · simp [hrefill] at hsettled
      · obtain ⟨rfl, -⟩ := ScanStep.onward.inj (hrefill.symm.trans honward)
        exact (ih hu).after (e₁ ++ e₂)

/-- Calls the scanner again and again, as long as it answers a record. -/
def drain (w : ω) (s : Scanner η Delimiter) : Scan :=
  match _h : (s.nextToken w).answer with
  | .ok (some record) => (drain w (s.nextToken w).next).cons record
  | .ok none => { records := [], outcome := .ok () }
  | .error error => { records := [], outcome := .error error }
termination_by s.unread w
decreasing_by exact nextToken_unread_lt _h

/-- A scanner that answers a record drains to it and to what comes behind it. -/
theorem drain_of_record {s : Scanner η Delimiter} {record : Bytes}
    (h : (s.nextToken w).answer = .ok (some record)) :
    s.drain w = ((s.nextToken w).next.drain w).cons record := by
  rw [drain]
  split
  · rename_i hanswer
    obtain rfl := Option.some.inj (Except.ok.inj (hanswer.symm.trans h))
    rfl
  · rename_i hanswer
    cases hanswer.symm.trans h
  · rename_i hanswer
    cases hanswer.symm.trans h

/-- A scanner that answers no record drains to nothing, and ends as it says. -/
theorem drain_of_stop {s : Scanner η Delimiter} {outcome : Except FeedError Unit}
    (h : (s.nextToken w).answer = outcome.map fun _ => none) :
    s.drain w = { records := [], outcome } := by
  rw [drain]
  split
  · rename_i hanswer
    cases outcome with
    | ok => cases hanswer.symm.trans h
    | error error => cases hanswer.symm.trans h
  · rename_i hanswer
    cases outcome with
    | ok => rfl
    | error error => cases hanswer.symm.trans h
  · rename_i hanswer
    cases outcome with
    | ok => cases hanswer.symm.trans h
    | error error =>
      obtain rfl := Except.error.inj (hanswer.symm.trans h)
      rfl

/-- A scanner gives the records of the bytes it faces.  By induction on the cuts of the bytes, and
    not on the calls: each call is settled as one cut says, and leaves a scanner that faces the
    rest. -/
theorem drain_of_faces {s : Scanner η Delimiter} (h : s.Faces w delimiter limit bytes ending) :
    s.drain w = cut delimiter limit ending bytes := by
  fun_induction cut delimiter limit ending bytes generalizing s with
  | case1 bytes record rest hcut ih =>
    have hanswers := nextToken_spec h
    rw [hcut] at hanswers
    obtain ⟨hrecord, hnext⟩ := hanswers
    rw [drain_of_record hrecord, ih hnext]
  | case2 bytes outcome hcut =>
    have hanswers := nextToken_spec h
    rw [hcut] at hanswers
    exact drain_of_stop hanswers

/-- **The records of a stream do not depend on how it arrives.**  Whatever the delimiter and the
    limit, and however a handle cuts its bytes into reads and interrupts them, a scanner on it gives
    the records of the bytes and comes to the end that the bytes and the ending of the stream
    determine. -/
theorem drain_eq_cut (delimiter : Bytes) (limit : Nat) {handle : η}
    (h : Delivers w handle bytes ending) :
    drain w (fresh handle ⟨delimiter⟩ limit) = cut delimiter limit ending bytes :=
  drain_of_faces (faces_start h)

/-- A delimiter of two bytes that an interruption falls into, and a failure after a partial
    record. -/
theorem drain_interrupted :
    Delivers (⟨0⟩ : Switch)
      (⟨[.data [97, 13], .interrupts, .data [10, 98], .fails (.bare .timedOut)]⟩ : Script)
      [97, 13, 10, 98] (.broken (.bare .timedOut)) ∧
    drain (⟨0⟩ : Switch)
      (fresh (⟨[.data [97, 13], .interrupts, .data [10, 98], .fails (.bare .timedOut)]⟩ : Script)
        ⟨[13, 10]⟩ 4) =
      { records := [[97]], outcome := .error (.io (.bare .timedOut)) } :=
  ⟨Script.delivers rfl _, (drain_eq_cut [13, 10] 4 (Script.delivers rfl _)).trans (by cbv)⟩

end Scanner

end RecordFeed
