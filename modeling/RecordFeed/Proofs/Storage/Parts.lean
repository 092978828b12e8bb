/-
  Parts stay what they were.

  A part is a window onto the store of an arena, and the arena goes on writing into the same
  segment, also after a reset.  That a part is not written over rests on one fact about an arena,
  `Sound`: the bytes that its latest segment holds end where the next record goes, and that is
  inside the segment.  So a record is written behind everything that was written before, and every
  window that was issued lies before it (`Behind`).

  1. `getElem?_overwrite`, `byte?_append`   what a write does to each byte of the store;
  2. `Sound.append`, `Sound.reset`          the fact is kept, whatever is appended;
  3. `Intact`, `Intact.step`, `Intact.run`  windows inside their segments, apart from each other and
                                            from what was written later, with what was written
                                            first;
  4. `parts_intact`                         the same for drafts, which never run out of room.
-/
import RecordFeed.Proofs.Storage.Drafts

namespace RecordFeed

/-! ## Windows over a store

  A window is looked at byte by byte.  Two windows are apart if no byte lies in both, and a
  part is intact if every byte of it reads as it did. -/

namespace Window

/-- Byte `i` of a segment lies in the window. -/
def Covers (w : Window) (segment i : Nat) : Prop :=
  w.segment = segment ∧ w.start ≤ i ∧ i < w.start + w.length

instance (w : Window) (segment i : Nat) : Decidable (w.Covers segment i) := by
  unfold Covers
  infer_instance

/-- No byte lies in both. -/
def Apart (v w : Window) : Prop := ∀ segment i, v.Covers segment i → ¬ w.Covers segment i

end Window

namespace Segment

/-- Overwriting changes the bytes from an offset on, as many as are written, and no other.  By
    induction on the record, one byte after another; `overwrite` goes over old bytes as long as
    there are any and then extends the segment. -/
theorem getElem?_overwrite (record : Bytes) {bytes : Array UInt8} {i : Nat} (h : i ≤ bytes.size)
    (j : Nat) :
    (overwrite bytes i record)[j]? =
      if i ≤ j ∧ j < i + record.length then record[j - i]? else bytes[j]? := by
  induction record generalizing bytes i with
  | nil =>
    rw [overwrite, if_neg]
    rintro ⟨hle, hlt⟩
    exact absurd hlt (Nat.not_lt.mpr hle)
  | cons b rest ih =>
    -- one byte is written, over an old one or behind the last
    have hsize : i + 1 ≤ (if h : i < bytes.size then bytes.set i b else bytes.push b).size := by
      split
      · rw [Array.size_set]
        assumption
      · rw [Array.size_push]
        omega
    have hone : ∀ j, (if h : i < bytes.size then bytes.set i b else bytes.push b)[j]? =
        if j = i then some b else bytes[j]? := by
      intro j
      split
      · rename_i hlt
        rw [Array.getElem?_set hlt]
        simp only [eq_comm]
      · rename_i hge
        have hend : bytes.size = i := by omega
        rw [Array.getElem?_push, hend]
    rw [overwrite, ih hsize, hone]
    -- the byte in question is the first one, one of the others, or none that was written
    by_cases hat : j = i
    · subst hat
      rw [if_neg (by omega), if_pos rfl, if_pos ⟨Nat.le_refl _, by simp⟩, Nat.sub_self]
      rfl
    · by_cases hlater : i + 1 ≤ j ∧ j < i + 1 + rest.length
      · obtain ⟨k, rfl⟩ : ∃ k, j = i + 1 + k := ⟨j - (i + 1), by omega⟩
        have hthis : i ≤ i + 1 + k ∧ i + 1 + k < i + (b :: rest).length := by
          rw [List.length_cons]
          omega
        have hindex : i + 1 + k - i = i + 1 + k - (i + 1) + 1 := by omega
        rw [if_pos hlater, if_pos hthis, hindex, List.getElem?_cons_succ]
      · have hnot : ¬ (i ≤ j ∧ j < i + (b :: rest).length) := by
          rw [List.length_cons]
          omega
        rw [if_neg hlater, if_neg hat, if_neg hnot]

/-- A record that is written behind the last byte makes the bytes longer by just its length.  By
    induction on the record. -/
theorem size_overwrite (record : Bytes) (bytes : Array UInt8) :
    (overwrite bytes bytes.size record).size = bytes.size + record.length := by
  induction record generalizing bytes with
  | nil => rfl
  | cons b rest ih =>
    have hpush : overwrite bytes bytes.size (b :: rest) =
        overwrite (bytes.push b) (bytes.push b).size rest := by
      rw [overwrite, dif_neg (Nat.lt_irrefl _), Array.size_push]
    rw [hpush, ih, Array.size_push, List.length_cons]
    omega

end Segment

namespace Arena

/-- A byte of the store, where one was written. -/
def byte? (a : Arena) (segment i : Nat) : Option UInt8 :=
  (a.store[segment]?).bind fun s => s.bytes[i]?

/-- The window lies inside its segment. -/
def Holds (a : Arena) (w : Window) : Prop :=
  ∃ s, a.store[w.segment]? = some s ∧ w.start + w.length ≤ s.capacity

/-- What is read through a window are the bytes that it covers. -/
theorem getElem?_read (a : Arena) (w : Window) (j : Nat) :
    (a.read w)[j]? = if j < w.length then a.byte? w.segment (w.start + j) else none := by
  unfold read byte?
  cases a.store[w.segment]? with
  | none => simp
  | some s =>
    show ((s.bytes.extract w.start (w.start + w.length)).toList)[j]? = _
    rw [Array.getElem?_toList, Array.getElem?_extract]
    by_cases hin : j < w.length
    · by_cases hbytes : w.start + j < s.bytes.size
      · rw [if_pos hin, if_pos (by omega)]
        rfl
      · rw [if_pos hin, if_neg (by omega)]
        exact (Array.getElem?_eq_none (by omega)).symm
    · rw [if_neg hin, if_neg (by omega)]

/-- A window whose bytes are untouched reads as before. -/
theorem read_congr {a b : Arena} {w : Window}
    (h : ∀ segment i, w.Covers segment i → b.byte? segment i = a.byte? segment i) :
    b.read w = a.read w := by
  apply List.ext_getElem?
  intro j
  rw [getElem?_read, getElem?_read]
  by_cases hin : j < w.length
  · rw [if_pos hin, if_pos hin]
    exact h _ _ ⟨rfl, Nat.le_add_right _ _, Nat.add_lt_add_left hin _⟩
  · rw [if_neg hin, if_neg hin]

/-! ## Where the next record goes

  What follows does not depend on which records were appended, only on where the next one goes. -/

/-- The latest segment is filled up to where the next record goes, and no further than it can be.
    So between two records there is no byte beyond the place where the next one goes. -/
def Sound (a : Arena) : Prop :=
  ∃ s, a.store[a.latest]? = some s ∧ s.bytes.size = a.offset ∧ a.offset ≤ s.capacity

/-- The window lies before the place where the next record goes.  This is what is known of a window
    that was issued, without regard to which record it holds. -/
def Behind (a : Arena) (w : Window) : Prop :=
  w.segment < a.latest ∨ w.segment = a.latest ∧ w.start + w.length ≤ a.offset

theorem sound_ofCapacity (segmentCapacity : Nat) : (ofCapacity segmentCapacity).Sound :=
  ⟨{ capacity := 0 }, rfl, rfl, Nat.le_refl 0⟩

variable {a : Arena}

/-- What making room does: the arena stays sound and has the room, the store keeps its bytes and its
    segments, and nothing that lay before the next record lies behind it. -/
structure Reserved (a r : Arena) (length : Nat) : Prop where
  sound : r.Sound
  room : ∃ s, r.store[r.latest]? = some s ∧ r.offset + length ≤ s.capacity
  bytes : ∀ segment i, r.byte? segment i = a.byte? segment i
  holds : ∀ w, a.Holds w → r.Holds w
  behind : ∀ w, a.Behind w → r.Behind w

/-- Making room opens a segment or does nothing.  Opening one leaves all others as they are, and
    moves the place of the next record to the front of the new one. -/
theorem Sound.reserve (h : a.Sound) (length : Nat) : Reserved a (a.reserve length) length := by
  obtain ⟨s, hlatest, hfilled, hcapacity⟩ := h
  have hroom : a.room = s.capacity - a.offset := by
    rw [room, hlatest]
    rfl
  by_cases hfull : a.room < length
  · have hreserve : a.reserve length = _ := if_pos hfull
    have hsize : 0 < a.store.size := by
      have := (Array.getElem?_eq_some_iff.mp hlatest).1
      omega
    -- the segment that is opened is the last one
    have hnew : ∀ opened : Segment,
        (a.store.push opened)[(a.store.push opened).size - 1]? = some opened := by
      intro opened
      rw [Array.size_push, Nat.add_sub_cancel]
      exact Array.getElem?_push_size
    rw [hreserve]
    constructor
    case sound => exact ⟨_, hnew _, rfl, Nat.zero_le _⟩
    case room =>
      refine ⟨_, hnew _, ?_⟩
      show 0 + length ≤ max a.segmentCapacity length
      omega
    case bytes =>
      intro segment i
      show ((a.store.push _)[segment]?).bind _ = (a.store[segment]?).bind _
      rw [Array.getElem?_push]
      split
      · rename_i hend
        rw [hend, Array.getElem?_eq_none (Nat.le_refl _)]
        rfl
      · rfl
    case holds =>
      rintro w ⟨t, ht, hle⟩
      refine ⟨t, ?_, hle⟩
      show (a.store.push _)[w.segment]? = some t
      have hold := (Array.getElem?_eq_some_iff.mp ht).1
      rw [Array.getElem?_push, if_neg (Nat.ne_of_lt hold)]
      exact ht
    case behind =>
      intro w hw
      left
      show w.segment < (a.store.push _).size - 1
      rw [Array.size_push]
      unfold Behind latest at hw
      omega
  · have hreserve : a.reserve length = a := if_neg hfull
    rw [hreserve]
    exact
      { sound := ⟨s, hlatest, hfilled, hcapacity⟩
        room := ⟨s, hlatest, by omega⟩
        bytes := fun _ _ => rfl
        holds := fun _ hw => hw
        behind := fun _ hw => hw }

/-- What appending does: the arena stays sound, exactly the bytes of the new window are written,
    with the record, and the window is inside its segment, apart from all that lay before. -/
structure Appended (a next : Arena) (w : Window) (record : Bytes) : Prop where
  length : w.length = record.length
  sound : next.Sound
  bytes : ∀ segment i,
    next.byte? segment i = if w.Covers segment i then record[i - w.start]? else a.byte? segment i
  inside : next.Holds w
  holds : ∀ v, a.Holds v → next.Holds v
  written : next.Behind w
  behind : ∀ v, a.Behind v → next.Behind v
  apart : ∀ v, a.Behind v → v.Apart w

/-- The record is written behind everything else of the latest segment.  Each part is about one
    thing that may have changed; what is not the latest segment has not. -/
theorem Sound.append (h : a.Sound) (record : Bytes) :
    Appended a (a.append record).2 (a.append record).1.window record := by
  have hreserved := h.reserve record.length
  unfold Arena.append
  -- from here on only what making room has left matters
  generalize a.reserve record.length = r at hreserved ⊢
  obtain ⟨s, hlatest, hfilled, -⟩ := hreserved.sound
  obtain ⟨s', hlatest', hfits⟩ := hreserved.room
  obtain rfl : s' = s := Option.some.inj (hlatest'.symm.trans hlatest)
  have hsize : (r.store.modify r.latest fun segment => segment.write r.offset record).size =
      r.store.size := Array.size_modify
  -- only the latest segment is written to
  have hmodify : ∀ segment,
      (r.store.modify r.latest fun segment => segment.write r.offset record)[segment]? =
        if r.latest = segment then some (s'.write r.offset record) else r.store[segment]? := by
    intro segment
    rw [Array.getElem?_modify]
    split
    · rename_i heq
      rw [← heq, hlatest]
      rfl
    · rfl
  constructor
  case length => rfl
  case sound =>
    refine ⟨s'.write r.offset record, ?_, ?_, hfits⟩
    · show (r.store.modify r.latest _)[(r.store.modify r.latest _).size - 1]? = _
      rw [hsize, hmodify]
      exact if_pos rfl
    · show (Segment.overwrite s'.bytes r.offset record).size = r.offset + record.length
      rw [← hfilled]
      exact Segment.size_overwrite record s'.bytes
  case bytes =>
    intro segment i
    rw [← hreserved.bytes]
    show ((r.store.modify r.latest _)[segment]?).bind _ = _
    rw [hmodify]
    by_cases hhere : r.latest = segment
    · have hbyte : r.byte? segment i = s'.bytes[i]? := by
        rw [byte?, ← hhere, hlatest]
        rfl
      rw [if_pos hhere, hbyte]
      show (Segment.overwrite s'.bytes r.offset record)[i]? = _
      rw [Segment.getElem?_overwrite record (Nat.le_of_eq hfilled.symm)]
      simp only [Window.Covers, hhere, true_and]
    · have hnot : ¬ Window.Covers ⟨r.latest, r.offset, record.length⟩ segment i :=
        fun hcovers => hhere hcovers.1
      rw [if_neg hhere, if_neg hnot]
      rfl
  case inside =>
    refine ⟨s'.write r.offset record, ?_, hfits⟩
    show (r.store.modify r.latest _)[r.latest]? = _
    rw [hmodify]
    exact if_pos rfl
  case holds =>
    intro v hv
    obtain ⟨t, ht, hle⟩ := hreserved.holds v hv
    by_cases hhere : r.latest = v.segment
    · obtain rfl : s' = t := Option.some.inj (by rw [← hlatest, hhere, ht])
      exact ⟨s'.write r.offset record, (hmodify _).trans (if_pos hhere), hle⟩
    · exact ⟨t, (hmodify _).trans ((if_neg hhere).trans ht), hle⟩
  case written =>
    right
    constructor
    · show r.latest = (r.store.modify r.latest _).size - 1
      rw [hsize]
      rfl
    · exact Nat.le_refl _
  case behind =>
    intro v hv
    have hbefore := hreserved.behind v hv
    show v.segment < (r.store.modify r.latest _).size - 1 ∨
      v.segment = (r.store.modify r.latest _).size - 1 ∧
        v.start + v.length ≤ r.offset + record.length
    rw [hsize]
    unfold Behind latest at hbefore
    omega
  case apart =>
    -- a window before the place of the record ends there, and the new one begins there
    rintro v hv segment i ⟨rfl, -, hlt⟩ ⟨hsegment, hle, -⟩
    have hbefore := hreserved.behind v hv
    unfold Behind at hbefore
    have hsegment : r.latest = v.segment := hsegment
    have hle : r.offset ≤ i := hle
    omega

/-- The record is what the new window reads. -/
theorem Appended.read_eq {next : Arena} {w : Window} {record : Bytes}
    (h : Appended a next w record) : next.read w = record := by
  apply List.ext_getElem?
  intro j
  rw [getElem?_read, h.bytes]
  by_cases hin : j < w.length
  · have hcovers : w.Covers w.segment (w.start + j) :=
      ⟨rfl, Nat.le_add_right _ _, Nat.add_lt_add_left hin _⟩
    rw [if_pos hin, if_pos hcovers, Nat.add_sub_cancel_left]
  · rw [if_neg hin]
    rw [h.length] at hin
    exact (List.getElem?_eq_none (Nat.not_lt.mp hin)).symm

/-- A window that lay before the record reads as before.  The new window is apart from it, and no
    byte changed outside of the new window. -/
theorem Appended.read_behind {next : Arena} {v w : Window} {record : Bytes}
    (h : Appended a next w record) (hv : a.Behind v) : next.read v = a.read v := by
  apply read_congr
  intro segment i hcovers
  rw [h.bytes]
  exact if_neg (h.apart v hv segment i hcovers)

/-! ## What is issued stays intact

  A step issues at most one part, behind all that were issued before.  So it is enough to
  compare each new part with the old ones. -/

/-- A reset moves nothing. -/
theorem Sound.step (h : a.Sound) (step : Step) : (a.step step).2.Sound := by
  cases step with
  | append record => exact (h.append record).sound
  | reset => exact h

/-- A step writes only into the windows of the parts that it issues. -/
theorem Sound.step_bytes (h : a.Sound) (step : Step) {segment i : Nat}
    (hnew : ∀ p ∈ (a.step step).1, ¬ p.window.Covers segment i) :
    (a.step step).2.byte? segment i = a.byte? segment i := by
  cases step with
  | append record =>
    have hnot := hnew (a.append record).1 (List.mem_singleton.mpr rfl)
    exact ((h.append record).bytes segment i).trans (if_neg hnot)
  | reset => rfl

/-- So does a run.  By induction on the steps. -/
theorem Sound.run_bytes (h : a.Sound) (steps : List Step) {segment i : Nat}
    (hnew : ∀ p ∈ (Arena.run steps a).1, ¬ p.window.Covers segment i) :
    (Arena.run steps a).2.byte? segment i = a.byte? segment i := by
  induction steps generalizing a with
  | nil => rfl
  | cons step later ih =>
    obtain ⟨hfirst, hlater⟩ := List.forall_mem_append.mp hnew
    exact (ih (h.step step) hlater).trans (h.step_bytes step hfirst)

/-- What holds of an arena and of all parts that it has issued.  `behind` is needed for the next
    step only, and the others are what is claimed. -/
structure Intact (a : Arena) (parts : List Part) : Prop where
  sound : a.Sound
  inside : ∀ p ∈ parts, a.Holds p.window
  apart : parts.Pairwise fun earlier later => earlier.window.Apart later.window
  reread : ∀ p ∈ parts, a.read p.window = p.payload
  behind : ∀ p ∈ parts, a.Behind p.window

/-- Nothing was issued yet. -/
theorem intact_ofCapacity (segmentCapacity : Nat) : (ofCapacity segmentCapacity).Intact [] where
  sound := sound_ofCapacity segmentCapacity
  inside := List.forall_mem_nil _
  apart := List.Pairwise.nil
  reread := List.forall_mem_nil _
  behind := List.forall_mem_nil _

variable {parts : List Part}

/-- **One step** keeps what was issued as it was, and what it issues itself is no different. -/
theorem Intact.step (h : a.Intact parts) (step : Step) :
    (a.step step).2.Intact (parts ++ (a.step step).1) := by
  cases step with
  | reset =>
    show a.reset.Intact (parts ++ [])
    rw [List.append_nil]
    exact ⟨h.sound, h.inside, h.apart, h.reread, h.behind⟩
  | append record =>
    -- the old parts lie before the record, so each of their facts goes over
    have happended := h.sound.append record
    show (a.append record).2.Intact (parts ++ [(a.append record).1])
    constructor
    case sound => exact happended.sound
    case inside =>
      rw [List.forall_mem_append, List.forall_mem_singleton]
      exact ⟨fun p hp => happended.holds _ (h.inside p hp), happended.inside⟩
    case apart =>
      rw [List.pairwise_append]
      refine ⟨h.apart, List.pairwise_singleton _ _, ?_⟩
      intro p hp later hlater
      rw [List.mem_singleton.mp hlater]
      exact happended.apart _ (h.behind p hp)
    case reread =>
      rw [List.forall_mem_append, List.forall_mem_singleton]
      refine ⟨?_, happended.read_eq⟩
      intro p hp
      rw [happended.read_behind (h.behind p hp)]
      exact h.reread p hp
    case behind =>
      rw [List.forall_mem_append, List.forall_mem_singleton]
      exact ⟨fun p hp => happended.behind _ (h.behind p hp), happended.written⟩

/-- **A run** of any length does the same: by induction on the steps, whatever was issued before. -/
theorem Intact.run (h : a.Intact parts) (steps : List Step) :
    (Arena.run steps a).2.Intact (parts ++ (Arena.run steps a).1) := by
  induction steps generalizing a parts with
  | nil =>
    show a.Intact (parts ++ [])
    rw [List.append_nil]
    exact h
  | cons step later ih =>
    have hrest := ih (h.step step)
    rw [List.append_assoc] at hrest
    exact hrest

/-- The parts hold the records that were appended, in their order.  By induction on the steps. -/
theorem run_payloads (steps : List Step) (a : Arena) :
    (Arena.run steps a).1.map Part.payload = records steps := by
  induction steps generalizing a with
  | nil => rfl
  | cons step later ih =>
    cases step with
    | append record => exact congrArg (record :: ·) (ih (a.append record).2)
    | reset => exact ih a.reset

end Arena

/-! ## The drafts

  A draft says which window it has written, and not only which part it has issued.  In a run
  both are the same (`run?_eq`), so what was shown of the parts holds of what is written. -/

namespace DraftArena

/-- A run that goes on with `more` issued after `issues`, from the drafts `mid` to the drafts
    `last`. -/
structure Undisturbed (issues more : List Issue) (mid last : DraftArena) : Prop where
  /-- a window never reaches over the end of its segment -/
  inside : ∀ issue ∈ issues ++ more, last.arena.Holds issue.part.window
  /-- no two windows share a byte -/
  apart : (issues ++ more).Pairwise fun earlier later =>
    earlier.part.window.Apart later.part.window
  /-- what is written later lies in no window that was issued -/
  unwritten : (issues ++ more).Pairwise fun earlier later =>
    earlier.part.window.Apart later.written
  /-- a byte that has changed was written -/
  changed : ∀ segment i, last.arena.byte? segment i ≠ mid.arena.byte? segment i →
    ∃ issue ∈ more, issue.written.Covers segment i
  /-- no byte of a window that was issued has changed -/
  unchanged : ∀ issue ∈ issues, ∀ segment i, issue.part.window.Covers segment i →
    last.arena.byte? segment i = mid.arena.byte? segment i
  /-- every part is still what was appended -/
  reread : ∀ issue ∈ issues ++ more, last.arena.read issue.part.window = issue.part.payload

/-- Parts that lie intact, whatever comes later.  With `issues` and `more` taken together nothing is
    disturbed at the end, and the rest is read off that. -/
theorem Undisturbed.of_intact {mid last : DraftArena} {issued : List Part}
    (h : mid.arena.Intact issued) {later : List Arena.Step}
    (hlast : last.arena = (Arena.run later mid.arena).2) :
    Undisturbed (issued.map Issue.ofPart) ((Arena.run later mid.arena).1.map Issue.ofPart) mid last := by
  have hboth := h.run later
  rw [← hlast] at hboth
  -- a byte that is in no later part is not written later
  have hbytes : ∀ {segment i},
      (∀ p ∈ (Arena.run later mid.arena).1, ¬ p.window.Covers segment i) →
        last.arena.byte? segment i = mid.arena.byte? segment i := by
    intro segment i hnew
    rw [hlast]
    exact h.sound.run_bytes later hnew
  obtain ⟨-, -, hcross⟩ := List.pairwise_append.mp hboth.apart
  constructor
  case inside =>
    rw [← List.map_append, List.forall_mem_map]
    exact hboth.inside
  case apart =>
    rw [← List.map_append, List.pairwise_map]
    exact hboth.apart
  case unwritten =>
    rw [← List.map_append, List.pairwise_map]
    exact hboth.apart
  case changed =>
    intro segment i hchanged
    by_cases hfound : ∃ p ∈ (Arena.run later mid.arena).1, p.window.Covers segment i
    · obtain ⟨p, hp, hcovers⟩ := hfound
      exact ⟨Issue.ofPart p, List.mem_map_of_mem hp, hcovers⟩
    · exact absurd (hbytes fun p hp hcovers => hfound ⟨p, hp, hcovers⟩) hchanged
  case unchanged =>
    rw [List.forall_mem_map]
    intro p hp segment i hcovers
    exact hbytes fun later hlater => hcross p hp later hlater segment i hcovers
  case reread =>
    rw [← List.map_append, List.forall_mem_map]
    exact hboth.reread

/-- **No part is ever disturbed.**  Whatever the capacity of a segment, and whatever is appended
    and reset before and later: the drafts have room for every record, so they do what the arena
    does, and what was issued stays inside its segment, apart from all else, unwritten and
    unchanged. -/
theorem parts_intact (segmentCapacity : Nat) (before later : List Arena.Step) :
    ∃ (issues more : List Issue) (mid last : DraftArena),
      run? before (ofCapacity segmentCapacity) = some (issues, mid) ∧
      run? later mid = some (more, last) ∧
      (issues.map Issue.part, mid.arena) = Arena.run before (Arena.ofCapacity segmentCapacity) ∧
      (more.map Issue.part, last.arena) = Arena.run later mid.arena ∧
      issues.map (fun issue => issue.part.payload) = Arena.records before ∧
      more.map (fun issue => issue.part.payload) = Arena.records later ∧
      Undisturbed issues more mid last := by
  obtain ⟨mid, hbefore, hmid, hsettled⟩ := run?_eq before (settled_ofCapacity segmentCapacity)
  obtain ⟨last, hlater, hlast, -⟩ := run?_eq later hsettled
  -- the drafts begin where the arena does
  have hstart : (ofCapacity segmentCapacity).arena = Arena.ofCapacity segmentCapacity := rfl
  rw [hstart] at hbefore hmid
  have hintact : mid.arena.Intact (Arena.run before (Arena.ofCapacity segmentCapacity)).1 := by
    rw [hmid]
    exact (Arena.intact_ofCapacity segmentCapacity).run before
  have hparts : ∀ parts : List Part, (parts.map Issue.ofPart).map Issue.part = parts := by
    intro parts
    rw [List.map_map]
    exact List.map_id parts
  have hpayloads : ∀ (steps : List Arena.Step) (a : Arena),
      ((Arena.run steps a).1.map Issue.ofPart).map (fun issue => issue.part.payload) =
        Arena.records steps := by
    intro steps a
    rw [List.map_map, ← Arena.run_payloads steps a]
    rfl
  refine ⟨_, _, mid, last, hbefore, hlater, ?_, ?_, hpayloads before _, hpayloads later _, ?_⟩
  · rw [hparts, hmid]
  · rw [hparts, hlast]
  · exact Undisturbed.of_intact hintact hlast

-- a segment of three bytes that is in use again after a reset, and then full
example :
    (Arena.run [.append [1, 2], .reset, .append [3], .append [4, 5, 6, 7]] (.ofCapacity 3)).1.map
      Part.window = [⟨1, 0, 2⟩, ⟨1, 2, 1⟩, ⟨2, 0, 4⟩] := by
  decide

end DraftArena

end RecordFeed
