/-
  What the delimiter policy decides about a window.

  1. **Reference** (`Delimiter.Decides`).  The decision is a matter of where the delimiter first
     stands in the window, of whether the window is empty, and of whether more can come.

  2. **Searches** (`Bytes.find?`).  The length of a delimiter says how it can be looked for: not at
     all if it is empty, byte by byte if it is one byte, and with a stretch of its length that
     slides over the window otherwise.  Each way finds the first occurrence (`find?_eq_firstAt?`),
     and so does the search in the buffer, which does not begin again where it was in vain before.

  3. **More bytes** (`split_append`, `length_lt_of_needMore`).  A record that a delimiter has ended
     stays as it is, whatever comes later, and a delimiter that is found only later ends in what
     came later.  That is why the pieces in which a stream arrives do not show.
-/
import RecordFeed.Proofs.Records.Scanning

namespace RecordFeed

/-! ## Searches

  There are three ways to search, and a buffer that remembers.  All find the first occurrence,
  so that the policy may be read with the reference in its place. -/

namespace Bytes

/-- All stretches of so many bytes, from left to right. -/
def stretches (size : Nat) (bytes : Bytes) : List Bytes :=
  (List.range (bytes.length + 1 - size)).map fun i => (bytes.drop i).take size

/-- Looks for a needle in the way that its length asks for. -/
def find? (needle hay : Bytes) : Option Nat :=
  match needle with
  | [] => none
  | [b] => hay.findIdx? (· == b)
  | needle => (stretches needle.length hay).findIdx? (· == needle)

variable {needle hay : Bytes}

/-- A needle stands where the stretch of its length is the needle.  One that is longer than the
    bytes has no stretch to be compared with. -/
theorem getElem?_stretches (hne : needle ≠ []) (i : Nat) :
    (stretches needle.length hay)[i]? = some needle ↔ Occurs needle hay i := by
  rw [stretches, List.getElem?_map, Occurs, and_iff_right hne, List.prefix_iff_eq_take]
  rcases Nat.lt_or_ge i (hay.length + 1 - needle.length) with hi | hi
  · rw [List.getElem?_range hi, Option.map_some, Option.some_inj, eq_comm]
  · rw [List.getElem?_eq_none (by simpa using hi)]
    refine iff_of_false (by simp) fun hstands => ?_
    have hoccurs : Occurs needle hay i := ⟨hne, List.prefix_iff_eq_take.mpr hstands⟩
    have hend := hoccurs.add_length_le
    omega

/-- The first place of something in a list is the first occurrence of a needle, if both are at the
    same places.  This is the common part of the two ways that compare something place by place. -/
theorem findIdx?_eq_firstAt? {α : Type} [BEq α] [LawfulBEq α] {l : List α} {a : α}
    (h : ∀ i, l[i]? = some a ↔ Occurs needle hay i) :
    l.findIdx? (· == a) = firstAt? needle hay := by
  have hplace {i : Nat} (hi : i < l.length) : (l[i] == a) = true ↔ Occurs needle hay i := by
    rw [beq_iff_eq, ← h i, List.getElem?_eq_getElem hi, Option.some_inj]
  cases hfound : l.findIdx? (· == a) with
  | some i =>
    -- the first place on the left is an occurrence, and an earlier occurrence would be an earlier
    -- place
    obtain ⟨hi, hstands, hearlier⟩ := List.findIdx?_eq_some_iff_getElem.mp hfound
    refine (firstAt?_eq_some_iff.mpr ⟨(hplace hi).mp hstands, fun j hj hoccurs => ?_⟩).symm
    exact hearlier j hj ((hplace (Nat.lt_trans hj hi)).mpr hoccurs)
  | none =>
    refine (firstAt?_eq_none_iff.mpr fun i hoccurs => ?_).symm
    have hmem := List.mem_of_getElem? ((h i).mpr hoccurs)
    have hdifferent := List.findIdx?_eq_none_iff.mp hfound a hmem
    simp at hdifferent

/-- Every way to look for a needle finds its first occurrence.  By the length of the needle. -/
theorem find?_eq_firstAt? (needle hay : Bytes) : find? needle hay = firstAt? needle hay := by
  unfold find?
  split
  · -- an empty needle occurs nowhere, by definition
    exact (firstAt?_eq_none_iff.mpr fun i hoccurs => hoccurs.1 rfl).symm
  · exact findIdx?_eq_firstAt? fun i => occurs_singleton_iff.symm
  · rename_i hne _
    exact findIdx?_eq_firstAt? (getElem?_stretches hne)

end Bytes

/-! ## Decisions

  The reference is a relation with one case for each decision.  That it has a decision for
  every window, and only one, is shown here. -/

namespace Delimiter

/-- The decision that a window deserves, before or at the end of the stream. -/
inductive Decides (d : Delimiter) (window : Bytes) : Bool → Split → Prop where
  | finished (empty : window = []) : Decides d window true .finished
  /-- The first delimiter ends a record, and both are consumed. -/
  | found {atEof : Bool} {i : Nat} (stands : Bytes.Occurs d.bytes window i)
      (first : ∀ j < i, ¬ Bytes.Occurs d.bytes window j) :
      Decides d window atEof (.token (i + d.bytes.length) 0 i)
  /-- What is left of a stream that is over is a record. -/
  | rest (vain : ∀ i, ¬ Bytes.Occurs d.bytes window i) (nonempty : window ≠ []) :
      Decides d window true (.token window.length 0 window.length)
  | needMore (vain : ∀ i, ¬ Bytes.Occurs d.bytes window i) : Decides d window false .needMore

variable {d : Delimiter} {window : Bytes} {atEof : Bool} {decision : Split}
  {advance start stop : Nat}

/-- The policy decides as the reference does.  By whether there is a delimiter, whether more can
    come and whether the window is empty. -/
theorem split_decides (d : Delimiter) (window : Bytes) (atEof : Bool) :
    d.Decides window atEof (d.split window atEof) := by
  cases hfound : Bytes.firstAt? d.bytes window with
  | some i =>
    obtain ⟨hstands, hfirst⟩ := Bytes.firstAt?_eq_some_iff.mp hfound
    rw [split_of_found hfound]
    exact .found hstands hfirst
  | none =>
    have hvain := Bytes.firstAt?_eq_none_iff.mp hfound
    cases atEof with
    | false =>
      rw [split_of_open hfound]
      exact .needMore hvain
    | true =>
      rcases eq_or_ne window [] with rfl | hne
      · exact .finished rfl
      · rw [split_of_rest hfound hne]
        exact .rest hvain hne

/-- The reference leaves no choice: each of its cases has just one decision. -/
theorem Decides.split_eq (h : d.Decides window atEof decision) :
    d.split window atEof = decision := by
  cases h with
  | finished empty =>
    subst empty
    exact split_nil_true
  | found stands first => exact split_of_found (Bytes.firstAt?_eq_some_iff.mpr ⟨stands, first⟩)
  | rest vain nonempty => exact split_of_rest (Bytes.firstAt?_eq_none_iff.mpr vain) nonempty
  | needMore vain => exact split_of_open (Bytes.firstAt?_eq_none_iff.mpr vain)

/-- Before the end of the stream only a delimiter makes a record. -/
theorem found_of_split (h : d.split window false = .token advance start stop) :
    Bytes.firstAt? d.bytes window = some stop ∧ advance = stop + d.bytes.length ∧ start = 0 := by
  have hdecides := split_decides d window false
  rw [h] at hdecides
  cases hdecides with
  | found stands first => exact ⟨Bytes.firstAt?_eq_some_iff.mpr ⟨stands, first⟩, rfl, rfl⟩

/-- More bytes are asked for only where no delimiter stands. -/
theorem firstAt?_of_needMore (h : d.split window false = .needMore) :
    Bytes.firstAt? d.bytes window = none := by
  have hdecides := split_decides d window false
  rw [h] at hdecides
  cases hdecides with
  | needMore vain => exact Bytes.firstAt?_eq_none_iff.mpr vain

/-! ## More bytes

  A window is a part of the bytes, and the rest of them comes later or never.  A decision that
  is made on the part has to be right for the whole. -/

/-- A delimiter that was found is the one to be found, whatever comes later. -/
theorem split_append (h : d.split window false = .token advance start stop) (more : Bytes)
    (atEof : Bool) : d.split (window ++ more) atEof = .token advance start stop := by
  obtain ⟨hfound, rfl, rfl⟩ := found_of_split h
  exact split_of_found (Bytes.firstAt?_of_prefix (List.prefix_append window more) hfound)

/-- A delimiter that is found only later ends in what came later, or it would have been found
    before. -/
theorem length_lt_of_needMore (h : d.split window false = .needMore) {more : Bytes}
    (hlater : d.split (window ++ more) false = .token advance start stop) :
    advance = stop + d.bytes.length ∧ window.length < advance := by
  obtain ⟨hfound, rfl, -⟩ := found_of_split hlater
  exact ⟨rfl, Bytes.length_lt_of_firstAt? (List.prefix_append window more)
    (firstAt?_of_needMore h) hfound⟩

/-- **What the policy decides.**  A window gets the decision that it deserves and no other,
    however the delimiter is looked for: in the way that its length asks for, or in the buffer.
    More bytes behind the window leave a record alone that a delimiter has ended, and where more
    bytes were asked for, a delimiter found later ends in them. -/
theorem split_iff_decides (d : Delimiter) (window : Bytes) :
    (∀ atEof decision, d.split window atEof = decision ↔ d.Decides window atEof decision) ∧
    (∀ atEof, d.decision (Bytes.find? d.bytes window) window.length atEof = d.split window atEof) ∧
    (∀ (buffer : Buffered) (atEof : Bool), buffer.toList = window →
      (SplitPolicy.splitBuffered d buffer atEof).1 = (d.split window atEof, d)) ∧
    (∀ advance start stop, d.split window false = .token advance start stop →
      ∀ more atEof, d.split (window ++ more) atEof = .token advance start stop) ∧
    (d.split window false = .needMore → ∀ more advance start stop,
      d.split (window ++ more) false = .token advance start stop →
        advance = stop + d.bytes.length ∧ window.length < advance) := by
  refine ⟨fun atEof decision => ?_, fun atEof => ?_, fun buffer atEof hsame => ?_,
    fun _ _ _ => split_append, fun h _ _ _ _ => length_lt_of_needMore h⟩
  · constructor
    · -- the decision on the left is the one the policy makes
      rintro rfl
      exact split_decides d window atEof
    · exact Decides.split_eq
  · rw [Bytes.find?_eq_firstAt?, split, Bytes.offset?_eq_firstAt?]
  · rw [SplitPolicy.splitBuffered_decision, hsame]
    rfl

/-- A delimiter that begins as it goes on: a byte twice, and another one. -/
def doubled : Delimiter := ⟨[97, 97, 98]⟩

/-- Of three equal bytes the last two begin the delimiter.  Without its last byte it is not
    found, and then it ends in what comes. -/
theorem split_iff_decides_doubled :
    doubled.split [97, 97, 97, 98] false = .token 4 0 1 ∧
    (∀ more atEof, doubled.split ([97, 97, 97, 98] ++ more) atEof = .token 4 0 1) ∧
    doubled.split [97, 97, 97] false = .needMore ∧
    doubled.split ([97, 97, 97] ++ [98, 97]) false = .token 4 0 1 ∧
    4 = 1 + doubled.bytes.length ∧ ([97, 97, 97] : Bytes).length < 4 := by
  obtain ⟨-, -, -, hstays, -⟩ := split_iff_decides doubled [97, 97, 97, 98]
  obtain ⟨-, -, -, -, hlater⟩ := split_iff_decides doubled [97, 97, 97]
  have hfound : doubled.split [97, 97, 97, 98] false = .token 4 0 1 := by decide
  have hopen : doubled.split [97, 97, 97] false = .needMore := by decide
  have hended : doubled.split ([97, 97, 97] ++ [98, 97]) false = .token 4 0 1 := by decide
  exact ⟨hfound, hstays 4 0 1 hfound, hopen, hended, hlater hopen [98, 97] 4 0 1 hended⟩

end Delimiter

end RecordFeed
