/-
  Segments are not opened for nothing.

  A record that does not fit into what is left of the latest segment makes the rest of that segment
  useless, and how much is lost depends on the record.  The loss is paid for by two records: by the
  one that did not fit and by those before it in the same segment.  Together they are longer than a
  segment, so a segment is never left behind for less than its own capacity, and no record pays for
  more than two of them.

  1. **What appending does to the counters** (`Appends`).  The record goes on in the latest segment
     or begins the next one, which is at least as large as an ordinary one.

  2. **The invariant** (`Economical`).  Of the segments since the last reset, the first may be a
     rest that the reset carried over, and the latest is still being filled.  Twice the bytes
     appended pay for all between them, and as much is left over as the latest one holds.

  3. `segments_paid` follows by induction on the steps, and holds of the drafts as well.
-/
import RecordFeed.Proofs.Storage.Drafts

namespace RecordFeed

namespace Arena

variable {a b : Arena}

/-- Writing into segments leaves their capacities alone. -/
theorem capacity_modify_write (store : Array Segment) (latest offset : Nat) (record : Bytes)
    (i : Nat) :
    ((store.modify latest fun segment => segment.write offset record)[i]?).map Segment.capacity =
      (store[i]?).map Segment.capacity := by
  rw [Array.getElem?_modify]
  split
  · rw [Option.map_map]
    rfl
  · rfl

/-- All that appending so many bytes can do to the counters of an arena. -/
inductive Appends (a : Arena) (length : Nat) (b : Arena) : Prop where
  /-- The latest segment goes on. -/
  | fits (hroom : length ≤ a.room) (hcapacity : b.segmentCapacity = a.segmentCapacity)
      (hcursor : b.cursor = a.cursor + length) (hsegments : b.segments = a.segments)
      (hoffset : b.offset = a.offset + length) (hrest : b.room = a.room - length)
  /-- A segment begins with the record. -/
  | opens (hroom : a.room < length) (hcapacity : b.segmentCapacity = a.segmentCapacity)
      (hcursor : b.cursor = a.cursor + length) (hsegments : b.segments = a.segments + 1)
      (hoffset : b.offset = length) (hrest : b.room = max a.segmentCapacity length - length)

/-- By whether the record fits.  The capacities of the segments are all that the room depends on,
    and writing leaves them alone. -/
theorem appends_append (a : Arena) (record : Bytes) :
    Appends a record.length (a.append record).2 := by
  -- whatever segment it is written into, a record takes its length of the room
  have hroom : (a.append record).2.room = (a.reserve record.length).room - record.length := by
    simp only [append, room, latest, Array.size_modify, capacity_modify_write]
    omega
  by_cases hfull : a.room < record.length
  · have hreserve : a.reserve record.length = _ := if_pos hfull
    refine .opens hfull ?_ (append_cursor a record) ?_ ?_ ?_
    · simp only [append, hreserve]
    · simp only [append, hreserve]
    · simp only [append, hreserve, Nat.zero_add]
    · rw [hroom, hreserve]
      simp only [room, latest, Array.size_push, Nat.add_sub_cancel, Array.getElem?_push_size]
      rfl
  · have hreserve : a.reserve record.length = a := if_neg hfull
    refine .fits (by omega) ?_ (append_cursor a record) ?_ ?_ ?_
    · simp only [append, hreserve]
    · simp only [append, hreserve]
    · simp only [append, hreserve]
    · rw [hroom, hreserve]

/-! ## The invariant

  The account has two sides: the segments that were left behind, and the bytes that were
  appended.  A step that opens a segment adds to both. -/

/-- The segments in use are paid for by what was appended since the last reset.  Without `wide` the
    induction does not go through: a segment carried over by a reset may be as good as full, and
    costs nothing. -/
structure Economical (a : Arena) : Prop where
  /-- If there are two, the latest was opened since the last reset, as large as an ordinary one. -/
  wide : 2 ≤ a.segments → a.segmentCapacity ≤ a.offset + a.room
  /-- Those between the first and the latest are paid for, and what the latest holds is left
      over. -/
  paid : ∀ between, a.segments = between + 2 →
    between * a.segmentCapacity + a.offset ≤ 2 * a.cursor

/-- With less than two segments there is nothing to be paid. -/
theorem economical_of_few (h : a.segments ≤ 1) : a.Economical := by
  constructor
  · intro htwo
    omega
  · intro between hbetween
    omega

/-- After a reset at most one segment is in use. -/
theorem economical_reset (a : Arena) : a.reset.Economical := by
  apply economical_of_few
  show (if 0 < a.room then 1 else 0) ≤ 1
  split <;> omega

/-- **Appending keeps the account.** A segment that is left behind held what the record did not
    leave room for, so both together pay for it.  The record that did not fit is counted twice at
    most: here, and when its own segment is left behind. -/
theorem Economical.appends (h : a.Economical) {length : Nat} (happends : Appends a length b) :
    b.Economical := by
  cases happends with
  | fits hroom hcapacity hcursor hsegments hoffset hrest =>
    constructor
    · intro htwo
      -- the same segments as before, and the latest holds more
      have hwide := h.wide (by omega)
      omega
    · intro between hbetween
      have hpaid := h.paid between (by omega)
      rw [hcapacity]
      omega
  | opens hroom hcapacity hcursor hsegments hoffset hrest =>
    constructor
    · intro _
      rw [hcapacity, hoffset, hrest]
      omega
    · intro between hbetween
      rw [hcapacity]
      cases between with
      -- the first segment was in use, which nobody has to pay for
      | zero => omega
      | succ between =>
        -- one more segment has become one between the first and the latest
        have hwide := h.wide (by omega)
        have hpaid := h.paid between (by omega)
        rw [Nat.succ_mul]
        omega

/-- One step, of either kind. -/
theorem Economical.step (h : a.Economical) (step : Step) : (a.step step).2.Economical := by
  cases step with
  | append record => exact h.appends (appends_append a record)
  | reset => exact economical_reset a

/-- **A run of any length keeps the account**, by induction on the steps. -/
theorem Economical.run (h : a.Economical) (steps : List Step) :
    (Arena.run steps a).2.Economical := by
  induction steps generalizing a with
  | nil => exact h
  | cons step later ih => exact ih (h.step step)

/-- The capacity of an ordinary segment never changes.  By induction on the steps. -/
theorem run_segmentCapacity (steps : List Step) (a : Arena) :
    (Arena.run steps a).2.segmentCapacity = a.segmentCapacity := by
  induction steps generalizing a with
  | nil => rfl
  | cons step later ih =>
    have hstep : (a.step step).2.segmentCapacity = a.segmentCapacity := by
      cases step with
      | reset => rfl
      | append record => cases appends_append a record <;> assumption
    exact (ih _).trans hstep

/-- **Segments are paid for by what they hold.**  Whatever is appended and reset, and whatever
    the capacity of a segment: the segments in use since the last reset, two of them apart, cost
    no more than twice the bytes appended since then.  So it is with the drafts, which always
    have room and do what the arena does. -/
theorem segments_paid (segmentCapacity : Nat) (steps : List Step) :
    let a := (run steps (ofCapacity segmentCapacity)).2
    (a.segments - 2) * max segmentCapacity 1 ≤ 2 * a.cursor ∧
    ∃ (issues : List Issue) (d : DraftArena),
      DraftArena.run? steps (DraftArena.ofCapacity segmentCapacity) = some (issues, d) ∧
      d.segments = a.segments ∧ d.cursor = a.cursor := by
  intro a
  constructor
  · have hpaid : a.Economical := Economical.run (economical_of_few (Nat.zero_le 1)) steps
    have hcapacity : a.segmentCapacity = max segmentCapacity 1 := run_segmentCapacity steps _
    -- with less than two segments the difference is zero
    rcases Nat.lt_or_ge a.segments 2 with hfew | hmany
    · rw [Nat.sub_eq_zero_of_le (by omega), Nat.zero_mul]
      exact Nat.zero_le _
    · have hbetween := hpaid.paid (a.segments - 2) (by omega)
      rw [hcapacity] at hbetween
      omega
  · obtain ⟨d, hrun, harena, -⟩ :=
      DraftArena.run?_eq steps (DraftArena.settled_ofCapacity segmentCapacity)
    exact ⟨_, d, hrun, congrArg Arena.segments harena, congrArg Arena.cursor harena⟩

-- a rest of one byte that a reset carries over, and then three segments of which two are left half full
example :
    let a := (run [.append [1, 2, 3], .reset, .append [4, 5], .append [6, 7, 8], .append [9, 10]]
      (ofCapacity 4)).2
    (a.segments, a.cursor) = (4, 7) := by
  decide

end Arena

end RecordFeed
