/-
  Buffered bytes: what a buffer holds from a place on.

  Whoever reads a stream takes bytes away in front, adds bytes behind, and looks for the same needle
  each time.  Here none of this goes over what stays: taking away moves a place forward, adding
  pushes onto the end, and only when more than half of the buffer lies before the place is the rest
  moved to the front.  A search in vain is remembered, and the next one for the same needle goes on
  where it ended.

  What the bytes are is said by `toList`, and each operation by one equation about it:

  * `toList_drop`, `toList_append`, `slice_eq`   cutting and adding are those of lists;
  * `search_found`, `toList_search`              the search finds what the search in a list finds,
                                                 and leaves the bytes alone.
-/
import RecordFeed.Bytes

namespace RecordFeed

/-! ## Needles at an index

  The search goes by index, so that it neither copies nor lists what it goes over.  The search
  in a list, which is easier to reason about, is shown to be the same. -/

namespace Bytes

/-- The needle stands at an index of the bytes. -/
def standsAt (bytes : Array UInt8) : Bytes → Nat → Bool
  | [], _ => true
  | b :: needle, i =>
    if h : i < bytes.size then bytes[i] == b && standsAt bytes needle (i + 1) else false

/-- The search for `first :: needle`, from an index on. -/
def indexFrom? (bytes : Array UInt8) (first : UInt8) (needle : Bytes) (i : Nat) : Option Nat :=
  if h : i < bytes.size then
    if bytes[i] == first && standsAt bytes needle (i + 1) then some i
    else indexFrom? bytes first needle (i + 1)
  else none
termination_by bytes.size - i

/-- What is left from an index on begins with the byte at the index. -/
theorem drop_toList_cons {bytes : Array UInt8} {i : Nat} (h : i < bytes.size) :
    bytes.toList.drop i = bytes[i] :: bytes.toList.drop (i + 1) := by
  rw [List.drop_eq_getElem_cons (by simpa using h)]
  simp

/-- Standing at an index is being a prefix of what is left from it on. -/
theorem standsAt_eq (bytes : Array UInt8) (needle : Bytes) (i : Nat) :
    standsAt bytes needle i = needle.isPrefixOf (bytes.toList.drop i) := by
  induction needle generalizing i with
  | nil => simp [standsAt]
  | cons b needle ih =>
    rw [standsAt]
    split
    · rename_i h
      rw [drop_toList_cons h, List.isPrefixOf_cons_cons, ih, Bool.beq_comm]
    · rename_i h
      rw [List.drop_eq_nil_of_le (by simpa using h)]
      rfl

/-- Bytes added behind do not matter to a needle that had room before.  The longer bytes may begin
    at a later place than the shorter ones, as they do when what counts is moved to the front of the
    buffer. -/
theorem standsAt_append (bytes longer : Array UInt8) (needle more : Bytes) (i k : Nat)
    (hlonger : longer.toList = bytes.toList.drop k ++ more)
    (hfit : k + i + needle.length ≤ bytes.size) :
    standsAt longer needle i = standsAt bytes needle (k + i) := by
  rw [standsAt_eq, standsAt_eq, hlonger,
    List.drop_append_of_le_length (by simp only [List.length_drop, Array.length_toList]; omega),
    List.drop_drop, Bool.eq_iff_iff, List.isPrefixOf_iff_prefix, List.isPrefixOf_iff_prefix]
  -- a prefix of the longer bytes that fits into the shorter ones is a prefix of these
  constructor
  · intro h
    exact List.prefix_of_prefix_length_le h (List.prefix_append _ _)
      (by simp only [List.length_drop, Array.length_toList]; omega)
  · intro h
    exact h.trans (List.prefix_append _ _)

/-- The search by index is the search in a list, from the same place and with the same count.  The
    array is never listed while the search runs; this is only what it comes to. -/
theorem indexFrom?_eq (bytes : Array UInt8) (first : UInt8) (needle : Bytes) (i : Nat) :
    indexFrom? bytes first needle i = offsetFrom? (first :: needle) (bytes.toList.drop i) i := by
  fun_induction indexFrom? bytes first needle i with
  | case1 i h hstands =>
    rw [drop_toList_cons h, offsetFrom?, List.isPrefixOf_cons_cons, ← standsAt_eq, Bool.beq_comm,
      if_pos hstands]
  | case2 i h hstands ih =>
    rw [drop_toList_cons h, offsetFrom?, List.isPrefixOf_cons_cons, ← standsAt_eq, Bool.beq_comm,
      if_neg hstands, ih]
  | case3 i h =>
    rw [List.drop_eq_nil_of_le (by simpa using h)]
    rfl

/-- After a search in vain the needle stands nowhere. -/
theorem standsAt_of_indexFrom?_eq_none {bytes : Array UInt8} {first : UInt8} {needle : Bytes}
    {i : Nat} (h : indexFrom? bytes first needle i = none) {j : Nat} (hj : i ≤ j) :
    standsAt bytes (first :: needle) j = false := by
  fun_induction indexFrom? bytes first needle i with
  | case1 => simp at h
  | case2 i hi hstands ih =>
    -- the index that was just passed over, or one behind it
    rcases Nat.eq_or_lt_of_le hj with rfl | hlt
    · rw [standsAt, dif_pos hi]
      simpa using hstands
    · exact ih h hlt
  | case3 i hi => rw [standsAt, dif_neg (by omega)]

/-- A search may begin later, if the needle does not stand before.  By induction on the search: each
    index that is passed over is one where the needle does not stand. -/
theorem indexFrom?_eq_of_le {bytes : Array UInt8} {first : UInt8} {needle : Bytes} {i k : Nat}
    (hik : i ≤ k)
    (hclear : ∀ j, i ≤ j → j < k → standsAt bytes (first :: needle) j = false) :
    indexFrom? bytes first needle i = indexFrom? bytes first needle k := by
  fun_induction indexFrom? bytes first needle i with
  | case1 i hi hstands =>
    rcases Nat.eq_or_lt_of_le hik with rfl | hlt
    · rw [indexFrom?, dif_pos hi, if_pos hstands]
    · have := hclear i (Nat.le_refl _) hlt
      rw [standsAt, dif_pos hi, hstands] at this
      simp at this
  | case2 i hi hstands ih =>
    rcases Nat.eq_or_lt_of_le hik with rfl | hlt
    · rw [indexFrom?.eq_def bytes first needle i, dif_pos hi, if_neg hstands]
    · exact ih hlt fun j hj => hclear j (Nat.le_of_succ_le hj)
  | case3 i hi => rw [indexFrom?, dif_neg (by omega)]

end Bytes

/-! ## Buffered bytes

  The place divides the buffer into what was consumed and what counts.  Consumed bytes are freed
  only now and then, so that what is moved is paid for by them. -/

/-- A buffer, of which only the bytes from a place on count.

    The last field is what makes it right to go on with a search: of the bytes that count, those
    before `clear` are no place of the needle, and the needle had room there, so that bytes added
    behind cannot make it stand after all. -/
structure Buffered where
  /-- all that the buffer holds -/
  bytes : Array UInt8 := #[]
  /-- so many bytes in front do not count any more -/
  place : Nat := 0
  /-- the needle last looked for in vain -/
  sought : Bytes := []
  /-- before this index it does not stand -/
  clear : Nat := 0
  place_le : place ≤ bytes.size := by simp
  absent (i : Nat) (hplace : place ≤ i) (hclear : i < clear) :
    i + sought.length ≤ bytes.size ∧ Bytes.standsAt bytes sought i = false := by simp

namespace Buffered

/-- The bytes that count. -/
def toList (b : Buffered) : Bytes := b.bytes.toList.drop b.place

/-- How many bytes count. -/
def size (b : Buffered) : Nat := b.bytes.size - b.place

/-- No byte counts. -/
def isEmpty (b : Buffered) : Bool := b.size == 0

/-- A buffer with just these bytes. -/
def ofList (bytes : Bytes) : Buffered := { bytes := bytes.toArray }

/-- Without the first `n` bytes. -/
def drop (n : Nat) (b : Buffered) : Buffered :=
  { b with
    place := min (b.place + n) b.bytes.size
    place_le := Nat.min_le_right _ _
    absent := fun i hplace => b.absent i (by have := b.place_le; omega) }

/-- The bytes from `start` to `stop`. -/
def slice (start stop : Nat) (b : Buffered) : Bytes :=
  (b.bytes.extract (b.place + start) (b.place + stop)).toList

/-- With more bytes behind.  If more than half of the buffer no longer counts, what counts is moved
    to the front first.  Both ways keep what is known of the needle sought: in the first its places
    move along with the bytes, in the second they stay. -/
def append (more : Bytes) : Buffered → Buffered
  | ⟨bytes, place, sought, clear, place_le, absent⟩ =>
    if bytes.size < 2 * place then
      { bytes := bytes.extract place bytes.size ++ more
        sought
        clear := clear - place
        -- what counts now begins at zero, so an index is one of before, moved back by the place
        absent := fun i _ hclear => by
          obtain ⟨hfit, hstands⟩ := absent (place + i) (Nat.le_add_right _ _) (by omega)
          refine ⟨?_, ?_⟩
          · rw [← Array.length_toList, Array.toList_appendList]
            simp only [List.length_append, Array.length_toList, Array.size_extract]
            omega
          · rw [← hstands]
            refine Bytes.standsAt_append _ _ _ more _ _ ?_ hfit
            simp only [Array.toList_appendList, Array.toList_extract, List.extract]
            rw [List.take_of_length_le (by simp)] }
    else
      { bytes := bytes ++ more
        place
        sought
        clear
        place_le := by rw [← Array.length_toList, Array.toList_appendList]; simp; omega
        absent := fun i hplace hclear => by
          obtain ⟨hfit, hstands⟩ := absent i hplace hclear
          refine ⟨?_, ?_⟩
          · rw [← Array.length_toList, Array.toList_appendList]
            simp only [List.length_append, Array.length_toList]
            omega
          · rw [← hstands]
            have := Bytes.standsAt_append bytes (bytes ++ more) sought more i 0 (by simp) (by omega)
            simpa using this }

/-- Where to look for a needle: not again where it was looked for in vain. -/
def searchPlace (needle : Bytes) (b : Buffered) : Nat :=
  if b.sought = needle then max b.place b.clear else b.place

/-- Before the place to look, the needle does not stand. -/
theorem standsAt_of_lt_searchPlace {needle : Bytes} {b : Buffered} {i : Nat}
    (hplace : b.place ≤ i) (h : i < b.searchPlace needle) :
    Bytes.standsAt b.bytes needle i = false := by
  unfold searchPlace at h
  split at h
  · rename_i hsame
    exact hsame ▸ (b.absent i hplace (by omega)).2
  · omega

/-- Where a needle occurs for the first time, and the same bytes.  A search in vain is remembered up
    to where the needle would have had room. -/
def search (needle : Bytes) (b : Buffered) : Option Nat × Buffered :=
  match needle with
  | [] => (none, b)
  | first :: rest =>
    match hfound : Bytes.indexFrom? b.bytes first rest (b.searchPlace (first :: rest)) with
    | some i => (some (i - b.place), b)
    | none =>
      (none,
        { b with
          sought := first :: rest
          clear := b.bytes.size - rest.length
          absent := fun i hplace hclear => by
            refine ⟨by simp only [List.length_cons]; omega, ?_⟩
            -- before the place where the search began, or passed over by it
            rcases Nat.lt_or_ge i (b.searchPlace (first :: rest)) with hlt | hle
            · exact standsAt_of_lt_searchPlace hplace hlt
            · exact Bytes.standsAt_of_indexFrom?_eq_none hfound hle })

/-- The size is the length of what counts, without listing it. -/
@[simp] theorem length_toList (b : Buffered) : b.toList.length = b.size := by
  simp [toList, size]

theorem size_congr {b c : Buffered} (h : b.toList = c.toList) : b.size = c.size := by
  rw [← length_toList, ← length_toList, h]

@[simp] theorem toList_ofList (bytes : Bytes) : (ofList bytes).toList = bytes := rfl

theorem isEmpty_eq (b : Buffered) : b.isEmpty = b.toList.isEmpty := by
  rw [isEmpty, ← length_toList]
  cases b.toList <;> rfl

/-- Taking away in front is `drop`, also where more is taken away than there is. -/
@[simp] theorem toList_drop (n : Nat) (b : Buffered) : (b.drop n).toList = b.toList.drop n := by
  simp only [toList, drop, List.drop_drop]
  rcases Nat.le_total (b.place + n) b.bytes.size with h | h
  · rw [Nat.min_eq_left h]
  · rw [Nat.min_eq_right h, List.drop_eq_nil_of_le (by simp), List.drop_eq_nil_of_le (by simpa using h)]

/-- As in a list, a size does not go below zero. -/
@[simp] theorem size_drop (n : Nat) (b : Buffered) : (b.drop n).size = b.size - n := by
  rw [← length_toList, toList_drop, List.length_drop, length_toList]

/-- Adding behind is `++`, whether or not what counts is moved to the front. -/
@[simp] theorem toList_append (more : Bytes) (b : Buffered) :
    (b.append more).toList = b.toList ++ more := by
  obtain ⟨bytes, place, sought, clear, place_le, absent⟩ := b
  simp only [append]
  split
  · simp only [toList, Array.toList_appendList, Array.toList_extract, List.extract, List.drop_zero]
    rw [List.take_of_length_le (by simp)]
  · simp only [toList, Array.toList_appendList]
    rw [List.drop_append_of_le_length (by simpa using place_le)]

/-- Moving to the front frees what no longer counts, and that had no part in the size. -/
@[simp] theorem size_append (more : Bytes) (b : Buffered) :
    (b.append more).size = b.size + more.length := by
  rw [← length_toList, toList_append, List.length_append, length_toList]

theorem slice_eq (start stop : Nat) (b : Buffered) :
    b.slice start stop = (b.toList.take stop).drop start := by
  simp only [slice, toList, Array.toList_extract, List.extract]
  rw [List.drop_take, List.drop_drop]
  congr 1
  omega

/-- Searching leaves the bytes alone. -/
@[simp] theorem toList_search (needle : Bytes) (b : Buffered) :
    (b.search needle).2.toList = b.toList := by
  unfold search
  split
  · rfl
  · split <;> rfl

/-- The search finds what the search in a list finds.  It may have begun late, but it has missed
    nothing (`standsAt_of_lt_searchPlace`), and its index is counted from the front of the buffer
    where an offset is counted from the place. -/
theorem search_found (needle : Bytes) (b : Buffered) :
    (b.search needle).1 = Bytes.offset? needle b.toList := by
  cases needle with
  | nil => rfl
  | cons first rest =>
    have hle : b.place ≤ b.searchPlace (first :: rest) := by unfold searchPlace; split <;> omega
    have hsearch : (b.search (first :: rest)).1 =
        (Bytes.indexFrom? b.bytes first rest (b.searchPlace (first :: rest))).map (· - b.place) := by
      simp only [search]
      split
      · rename_i hfound
        exact (congrArg (Option.map (· - b.place)) hfound).symm
      · rename_i hvain
        exact (congrArg (Option.map (· - b.place)) hvain).symm
    rw [hsearch, ← Bytes.indexFrom?_eq_of_le hle fun j hj hlt => standsAt_of_lt_searchPlace hj hlt,
      Bytes.indexFrom?_eq, Bytes.offset?, if_neg (by simp), Bytes.offsetFrom?_eq_map, Option.map_map]
    exact (congrArg (Option.map · _) (funext fun j => Nat.add_sub_cancel_left ..)).trans
      (by simp [toList])

example : (((ofList [1, 2, 3, 4]).drop 1).append [5]).slice 1 4 = [3, 4, 5] := by decide

end Buffered

end RecordFeed
