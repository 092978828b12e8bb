/-
  An arena made of windows that are still written.

  An `Arena` works out where a record goes and puts it there.  Underneath stands a window onto the
  store that only its holder writes, a `Draft`: a stretch of a segment, of which some bytes at the
  front are written.  There are four things to do with one:

  * `Draft.fresh`   opens a segment of just so many bytes and takes all of it;
  * `Draft.put?`    writes behind what is written; without room for that there is no answer, for a
                    draft that grew of its own accord could end up anywhere;
  * `Draft.split`   gives what is written away for good, as a window that is only read, and keeps the
                    rest;
  * `Draft.clear`   takes back what is written, but nothing that was given away.

  `DraftArena` is the arena in these terms.  It always has an answer, and it does what the arena
  does (`append?_eq`, `run?_eq`).
-/
import RecordFeed.Arena

namespace RecordFeed

/-! ## Drafts

  These are the operations of a buffer of bytes that can be shared: what was split off is read
  by others while the rest is still written.  None of them moves a byte that is there already. -/

/-- A window onto the store that is still written: `length` bytes from `start` on are, and there is
    room for `capacity` in all. -/
structure Draft where
  segment : Nat
  start : Nat := 0
  length : Nat := 0
  capacity : Nat
deriving Repr, DecidableEq

namespace Draft

/-- A draft over a segment that is opened for it, of just so many bytes. -/
def fresh (store : Array Segment) (capacity : Nat) : Draft × Array Segment :=
  ({ segment := store.size, capacity }, store.push { capacity })

/-- Where the next byte is written. -/
def position (d : Draft) : Nat := d.start + d.length

/-- Writes a record behind what is written, and says which window of the store was written. -/
def put? (store : Array Segment) (d : Draft) (record : Bytes) :
    Option (Window × Draft × Array Segment) :=
  if record.length ≤ d.capacity - d.length then
    some
      (⟨d.segment, d.position, record.length⟩,
        { d with length := d.length + record.length },
        store.modify d.segment fun segment => segment.write d.position record)
  else none

/-- What is written, as a window that is only read, and the rest as a draft. -/
def split (d : Draft) : Window × Draft :=
  (⟨d.segment, d.start, d.length⟩,
    { d with start := d.start + d.length, length := 0, capacity := d.capacity - d.length })

/-- Nothing of it is written. -/
def clear (d : Draft) : Draft := { d with length := 0 }

end Draft

/-! ## What is asked of an arena

  Records are appended and the arena is reset, in any order.  What is said of an arena below is
  said of all such runs. -/

namespace Arena

/-- What an arena can be asked for. -/
inductive Step where
  | append (record : Bytes)
  | reset

/-- One step, with the part that it issues. -/
def step (a : Arena) : Step → List Part × Arena
  | .append record => ([(a.append record).1], (a.append record).2)
  | .reset => ([], a.reset)

/-- One step after another, with all parts that they issue. -/
def run : List Step → Arena → List Part × Arena
  | [], a => ([], a)
  | step :: later, a =>
    let first := a.step step
    let rest := run later first.2
    (first.1 ++ rest.1, rest.2)

/-- The records that are appended. -/
def records (steps : List Step) : List Bytes :=
  steps.filterMap fun
    | .append record => some record
    | .reset => none

end Arena

/-! ## The arena in terms of drafts

  The counters are kept beside the draft in the same way as in an `Arena`, so that the two can
  be compared field by field (`arena`). -/

/-- A part that was issued, and the window of the store that was written for it.  The two are kept
    apart, so that it can be asked whether they are the same. -/
structure Issue where
  part : Part
  written : Window

/-- A part for which just its own window was written. -/
def Issue.ofPart (part : Part) : Issue := ⟨part, part.window⟩

/-- An arena over a draft. -/
structure DraftArena where
  /-- the capacity of a segment that is opened for an ordinary record -/
  segmentCapacity : Nat
  store : Array Segment := #[{ capacity := 0 }]
  /-- the draft that takes the next record -/
  current : Draft := { segment := 0, capacity := 0 }
  cursor : Nat := 0
  segments : Nat := 0

namespace DraftArena

/-- A new arena over a draft of a segment without any room, so that the first record opens one. -/
def ofCapacity (segmentCapacity : Nat) : DraftArena := { segmentCapacity := max segmentCapacity 1 }

/-- Opens a segment for a record that the draft has no room for. -/
def reserve (d : DraftArena) (length : Nat) : DraftArena :=
  if d.current.capacity - d.current.length < length then
    let opened := Draft.fresh d.store (max d.segmentCapacity length)
    { d with current := opened.1, store := opened.2, segments := d.segments + 1 }
  else d

/-- Writes a record and gives it away. -/
def append? (d : DraftArena) (record : Bytes) : Option (Issue × DraftArena) :=
  let d := d.reserve record.length
  (d.current.put? d.store record).map fun (written, current, store) =>
    let given := current.split
    ({ part := ⟨record, given.1⟩, written },
      { d with store, current := given.2, cursor := d.cursor + record.length })

/-- Takes back the draft, and counts the current segment as the only one in use if there is room
    left in it. -/
def reset (d : DraftArena) : DraftArena :=
  let current := d.current.clear
  { d with current, cursor := 0, segments := if 0 < current.capacity then 1 else 0 }

/-- One step, with what it issues, if the draft has an answer. -/
def step? (d : DraftArena) : Arena.Step → Option (List Issue × DraftArena)
  | .append record => (d.append? record).map fun (issue, next) => ([issue], next)
  | .reset => some ([], d.reset)

/-- One step after another, with all that they issue. -/
def run? : List Arena.Step → DraftArena → Option (List Issue × DraftArena)
  | [], d => some ([], d)
  | step :: later, d =>
    (d.step? step).bind fun (first, next) =>
      (run? later next).map fun (rest, last) => (first ++ rest, last)

/-- The arena that writes where the draft does. -/
def arena (d : DraftArena) : Arena :=
  { segmentCapacity := d.segmentCapacity, store := d.store, offset := d.current.position,
    cursor := d.cursor, segments := d.segments }

/-- Between two steps the draft has given away all that it wrote, and reaches from there to the end
    of the latest segment.  This is what makes the room of the draft the room of the arena, and it
    holds again after every step. -/
structure Settled (d : DraftArena) : Prop where
  nothing_kept : d.current.length = 0
  latest : d.current.segment = d.arena.latest
  to_the_end : ∃ segment, d.store[d.current.segment]? = some segment ∧
    segment.capacity = d.current.start + d.current.capacity

/-- A new draft has written nothing, and its segment is the only one there is. -/
theorem settled_ofCapacity (segmentCapacity : Nat) : (ofCapacity segmentCapacity).Settled where
  nothing_kept := rfl
  latest := rfl
  to_the_end := ⟨{ capacity := 0 }, rfl, rfl⟩

variable {d : DraftArena}

/-- The room of the draft is the room of the arena. -/
theorem Settled.room_eq (h : d.Settled) : d.arena.room = d.current.capacity - d.current.length := by
  obtain ⟨segment, hsegment, hcapacity⟩ := h.to_the_end
  have hlatest : d.arena.store[d.arena.latest]? = some segment := by
    rw [← h.latest]
    exact hsegment
  rw [Arena.room, hlatest, Option.map_some, Option.getD_some, hcapacity]
  show d.current.start + d.current.capacity - (d.current.start + d.current.length) = _
  omega

/-- Both open a segment for the same records.  The new segment is at least as long as the record, so
    the draft has room for it. -/
theorem reserve_arena (h : d.Settled) (length : Nat) :
    (d.reserve length).arena = d.arena.reserve length ∧ (d.reserve length).Settled ∧
      length ≤ (d.reserve length).current.capacity := by
  have hroom := h.room_eq
  by_cases hfull : d.arena.room < length
  · -- both have too little room for it, and open a segment of the same capacity
    have hdraft : d.reserve length = _ := if_pos (hroom ▸ hfull)
    have harena : d.arena.reserve length = _ := if_pos hfull
    rw [hdraft, harena]
    refine ⟨rfl, ⟨rfl, ?_, ?_⟩, Nat.le_max_right _ _⟩
    · show d.store.size = (d.store.push _).size - 1
      rw [Array.size_push, Nat.add_sub_cancel]
    · refine ⟨{ capacity := max d.segmentCapacity length }, ?_, (Nat.zero_add _).symm⟩
      exact Array.getElem?_push_size
  · have hdraft : d.reserve length = d := if_neg (hroom ▸ hfull)
    have harena : d.arena.reserve length = d.arena := if_neg hfull
    rw [hdraft, harena]
    refine ⟨rfl, h, ?_⟩
    have hkept := h.nothing_kept
    omega

/-- **A record is written where the arena puts it**, into room that the draft has, and what was
    written is what is given away.  So there is always an answer, and the window that was written is
    the part. -/
theorem append?_eq (h : d.Settled) (record : Bytes) :
    ∃ next : DraftArena,
      d.append? record =
        some (Issue.ofPart (d.arena.append record).1, next) ∧
      next.arena = (d.arena.append record).2 ∧ next.Settled := by
  obtain ⟨hsame, hsettled, hfits⟩ := reserve_arena h record.length
  unfold append? Arena.append
  rw [← hsame]
  -- only the draft that has room for the record matters from here on
  generalize d.reserve record.length = r at hsettled hfits ⊢
  obtain ⟨segmentCapacity, store, ⟨number, start, length, capacity⟩, cursor, segments⟩ := r
  obtain rfl : length = 0 := hsettled.nothing_kept
  -- there is room, so the record is written
  have hput : Draft.put? store ⟨number, start, 0, capacity⟩ record =
      some (⟨number, start, record.length⟩, ⟨number, start, 0 + record.length, capacity⟩,
        store.modify number fun segment => segment.write start record) := if_pos hfits
  obtain rfl : number = store.size - 1 := hsettled.latest
  let number := store.size - 1
  let next : DraftArena :=
    { segmentCapacity
      store := store.modify number fun segment => segment.write start record
      current :=
        { segment := number, start := start + record.length, capacity := capacity - record.length }
      cursor := cursor + record.length
      segments }
  -- what was written is split off at once, and the rest of the draft goes on behind it
  simp only [hput, Option.map_some, Draft.split, Nat.zero_add]
  refine ⟨next, rfl, rfl, ⟨rfl, ?_, ?_⟩⟩
  · show store.size - 1 = (store.modify _ _).size - 1
    rw [Array.size_modify]
  · obtain ⟨segment, hsegment, hcapacity⟩ := hsettled.to_the_end
    refine ⟨segment.write start record, ?_, ?_⟩
    · show (store.modify number _)[number]? = _
      rw [Array.getElem?_modify, if_pos rfl]
      exact congrArg (Option.map _) hsegment
    · show segment.capacity = start + record.length + (capacity - record.length)
      have hcapacity : segment.capacity = start + capacity := hcapacity
      have hfits : record.length ≤ capacity := hfits
      omega

/-- Resetting gives the draft nothing back.  It clears what is written, and between two steps that
    is nothing. -/
theorem reset_arena (h : d.Settled) : d.reset.arena = d.arena.reset ∧ d.reset.Settled := by
  have hroom := h.room_eq
  obtain ⟨segmentCapacity, store, ⟨number, start, length, capacity⟩, cursor, segments⟩ := d
  obtain rfl : length = 0 := h.nothing_kept
  refine ⟨?_, ⟨rfl, h.latest, h.to_the_end⟩⟩
  rw [Arena.reset, hroom]
  rfl

/-- **Steps in lockstep.**  The drafts have an answer to every run of an arena, the same parts, each
    written where it lies, and an arena that writes on at the same place.  By induction on the
    steps. -/
theorem run?_eq (steps : List Arena.Step) (h : d.Settled) :
    ∃ next : DraftArena,
      run? steps d =
        some ((Arena.run steps d.arena).1.map Issue.ofPart, next) ∧
      next.arena = (Arena.run steps d.arena).2 ∧ next.Settled := by
  induction steps generalizing d with
  | nil => exact ⟨d, rfl, rfl, h⟩
  | cons step later ih =>
    cases step with
    | append record =>
      obtain ⟨next, happend, harena, hnext⟩ := append?_eq h record
      obtain ⟨last, hrun, hlast, hsettled⟩ := ih hnext
      refine ⟨last, ?_, ?_, hsettled⟩
      · rw [run?, step?, happend, Option.map_some, Option.bind_some]
        dsimp only
        rw [hrun, harena]
        rfl
      · rw [hlast, harena]
        rfl
    | reset =>
      obtain ⟨harena, hnext⟩ := reset_arena h
      obtain ⟨last, hrun, hlast, hsettled⟩ := ih hnext
      refine ⟨last, ?_, ?_, hsettled⟩
      · rw [run?, step?, Option.bind_some]
        dsimp only
        rw [hrun, harena]
        rfl
      · rw [hlast, harena]
        rfl

end DraftArena

end RecordFeed
