/-
  The records of a byte string.

  What the records of a stream are is a matter of its bytes, of a delimiter, of a limit and of how
  the stream ends.  It is said here without buffers, windows and reads:

  * `Bytes.firstAt?`   where a needle occurs for the first time;
  * `firstCut`         what the bytes begin with: a record, or the reason why there is none;
  * `cut`              all records one after another, and how the cutting comes to its end.

  A scanner only ever sees a part of the bytes.  Why that is enough is said in two lemmas: what is
  found in the part is what is found in the whole (`firstAt?_of_prefix`), and what is not found in
  the part ends behind it (`length_lt_of_firstAt?`).
-/
import Mathlib.Data.List.Infix
import RecordFeed.Bytes
import RecordFeed.Error

namespace RecordFeed

/-! ## The first occurrence of a needle

  The reference searches all offsets from the first on.  It is no way to search a buffer, and
  the loop that does is shown to find the same. -/

namespace Bytes

/-- A needle of at least one byte stands at an offset, wholly inside the bytes.  The empty needle
    stands nowhere: it would stand everywhere, and end a record without consuming anything. -/
def Occurs (needle hay : Bytes) (i : Nat) : Prop :=
  needle ≠ [] ∧ needle <+: hay.drop i

instance (needle hay : Bytes) (i : Nat) : Decidable (Occurs needle hay i) :=
  inferInstanceAs (Decidable (_ ∧ _))

/-- The least offset at which a needle stands. -/
def firstAt? (needle hay : Bytes) : Option Nat :=
  (List.range hay.length).find? fun i => decide (Occurs needle hay i)

/-- An occurrence ends inside the bytes. -/
theorem Occurs.add_length_le {needle hay : Bytes} {i : Nat} (h : Occurs needle hay i) :
    i + needle.length ≤ hay.length := by
  have hpos := List.length_pos_iff.mpr h.1
  have hlen := h.2.length_le
  rw [List.length_drop] at hlen
  omega

theorem Occurs.lt_length {needle hay : Bytes} {i : Nat} (h : Occurs needle hay i) :
    i < hay.length := by
  have hpos := List.length_pos_iff.mpr h.1
  have hle := h.add_length_le
  omega

/-- A single byte stands where it is the byte. -/
theorem occurs_singleton_iff {b : UInt8} {hay : Bytes} {i : Nat} :
    Occurs [b] hay i ↔ hay[i]? = some b := by
  rw [Occurs, ← List.head?_drop, and_iff_right (List.cons_ne_nil b [])]
  cases hay.drop i with
  | nil => simp
  | cons c rest => simp [List.cons_prefix_cons, eq_comm]

/-- What is found is an occurrence with none before it.  The search goes through all offsets, and an
    occurrence has one of them. -/
theorem firstAt?_eq_some_iff {needle hay : Bytes} {i : Nat} :
    firstAt? needle hay = some i ↔ Occurs needle hay i ∧ ∀ j < i, ¬ Occurs needle hay j := by
  rw [firstAt?, List.find?_range_eq_some]
  constructor
  · rintro ⟨hi, -, hleast⟩
    exact ⟨of_decide_eq_true hi, fun j hj => by simpa using hleast j hj⟩
  · rintro ⟨hi, hleast⟩
    refine ⟨decide_eq_true hi, List.mem_range.mpr hi.lt_length, fun j hj => ?_⟩
    simpa using hleast j hj

/-- Nothing is found where the needle stands nowhere, also not at an offset beyond the bytes. -/
theorem firstAt?_eq_none_iff {needle hay : Bytes} :
    firstAt? needle hay = none ↔ ∀ i, ¬ Occurs needle hay i := by
  rw [firstAt?, List.find?_range_eq_none]
  constructor
  · intro h i hi
    simpa [hi] using h i hi.lt_length
  · intro h i _
    simpa using h i

theorem Occurs.of_prefix {needle part hay : Bytes} {i : Nat} (hpart : part <+: hay)
    (h : Occurs needle part i) : Occurs needle hay i :=
  ⟨h.1, h.2.trans (hpart.drop i)⟩

/-- What stands in the bytes and ends in a part of them stands in the part. -/
theorem Occurs.of_add_length_le {needle part hay : Bytes} {i : Nat} (hpart : part <+: hay)
    (h : Occurs needle hay i) (hle : i + needle.length ≤ part.length) : Occurs needle part i := by
  -- both are prefixes of the bytes behind the offset, and the needle is the shorter one
  refine ⟨h.1, List.prefix_of_prefix_length_le h.2 (hpart.drop i) ?_⟩
  rw [List.length_drop]
  omega

/-- **Bytes that come later do not matter**: the first occurrence in a part of the bytes is the
    first one in all of them.  An earlier one would end in the part as well. -/
theorem firstAt?_of_prefix {needle part hay : Bytes} {i : Nat} (hpart : part <+: hay)
    (h : firstAt? needle part = some i) : firstAt? needle hay = some i := by
  obtain ⟨hi, hleast⟩ := firstAt?_eq_some_iff.mp h
  have hend := hi.add_length_le
  refine firstAt?_eq_some_iff.mpr ⟨hi.of_prefix hpart, fun j hj hoccurs => ?_⟩
  -- an earlier occurrence ends before the one found, and so in the part
  exact hleast j hj (hoccurs.of_add_length_le hpart (by omega))

/-- A first occurrence that a part of the bytes does not show ends behind the part. -/
theorem length_lt_of_firstAt? {needle part hay : Bytes} {i : Nat} (hpart : part <+: hay)
    (hvain : firstAt? needle part = none) (h : firstAt? needle hay = some i) :
    part.length < i + needle.length := by
  rcases Nat.lt_or_ge part.length (i + needle.length) with hlt | hle
  · exact hlt
  · have hi := (firstAt?_eq_some_iff.mp h).1.of_add_length_le hpart hle
    exact absurd hi (firstAt?_eq_none_iff.mp hvain i)

/-- In no bytes nothing stands, not even the empty needle. -/
@[simp] theorem firstAt?_nil_right (needle : Bytes) : firstAt? needle [] = none := rfl

/-- Looking for a needle byte by byte.  The offsets behind the first byte are those of the rest,
    each one greater. -/
theorem firstAt?_cons (needle : Bytes) (b : UInt8) (rest : Bytes) :
    firstAt? needle (b :: rest) =
      if Occurs needle (b :: rest) 0 then some 0 else (firstAt? needle rest).map (1 + ·) := by
  have hlater (i : Nat) : Occurs needle (b :: rest) (i + 1) ↔ Occurs needle rest i := Iff.rfl
  rw [firstAt?, List.length_cons, List.range_succ_eq_map, List.find?_cons, List.find?_map]
  by_cases h : Occurs needle (b :: rest) 0
  · rw [decide_eq_true h, if_pos h]
  · rw [decide_eq_false h, if_neg h]
    simp only [firstAt?, Function.comp_def, hlater, Nat.succ_eq_add_one, Nat.add_comm]

/-- The search loop finds the first occurrence.  The reference goes through the offsets and the
    search through the bytes; by induction on the bytes they agree at each of them. -/
theorem offset?_eq_firstAt? (needle hay : Bytes) : offset? needle hay = firstAt? needle hay := by
  cases needle with
  | nil => exact (firstAt?_eq_none_iff.mpr fun i hi => hi.1 rfl).symm
  | cons first more =>
    rw [offset?, if_neg (by simp)]
    induction hay with
    | nil => rfl
    | cons b rest ih =>
      have hhere : Occurs (first :: more) (b :: rest) 0 ↔
          (first :: more).isPrefixOf (b :: rest) = true := by
        rw [List.isPrefixOf_iff_prefix]
        exact and_iff_right (List.cons_ne_nil _ _)
      rw [offsetFrom?, firstAt?_cons, offsetFrom?_eq_map, ih]
      by_cases h : Occurs (first :: more) (b :: rest) 0
      · rw [if_pos h, if_pos (hhere.mp h)]
      · rw [if_neg h, if_neg (mt hhere.mpr h), Nat.zero_add]

end Bytes

/-! ## Cutting records

  What a stream begins with depends on its first delimiter, on the limit, and on how it ends.
  The three are weighed in this order, and one definition says how. -/

/-- How a stream comes to its end. -/
inductive StreamEnd where
  /-- A read gives no bytes. -/
  | over
  /-- A read fails, and not because it was interrupted. -/
  | broken (error : IoError)

/-- What comes of scanning a stream: its records, and how the scan ends. -/
structure Scan where
  records : List Bytes
  outcome : Except FeedError Unit

/-- The same scan with one more record before it. -/
def Scan.cons (record : Bytes) (scan : Scan) : Scan :=
  { scan with records := record :: scan.records }

/-- What some bytes begin with. -/
inductive Cut where
  | record (bytes rest : Bytes)
  /-- There are no more records, and this is why. -/
  | stop (outcome : Except FeedError Unit)

/-- The cut when no delimiter ends a record within the limit.  The limit comes first: bytes that
    fill it are too many even for a stream that ends right behind them, because a scanner whose
    buffer is full cannot see the end. -/
def lastCut (limit : Nat) (ending : StreamEnd) (bytes : Bytes) : Cut :=
  if limit ≤ bytes.length then .stop (.error (.tokenTooLarge limit))
  else
    match ending with
    | .over => if bytes.isEmpty then .stop (.ok ()) else .record bytes []
    | .broken error => .stop (.error (.io error))

/-- The record that the first delimiter ends, if the limit admits both.  A record with its delimiter
    may fill the limit; one byte more is too much. -/
def firstCut (delimiter : Bytes) (limit : Nat) (ending : StreamEnd) (bytes : Bytes) : Cut :=
  match Bytes.firstAt? delimiter bytes with
  | some i =>
    if i + delimiter.length ≤ limit then
      .record (bytes.take i) (bytes.drop (i + delimiter.length))
    else lastCut limit ending bytes
  | none => lastCut limit ending bytes

variable {delimiter : Bytes} {limit : Nat} {ending : StreamEnd}

/-- The last cut takes all that a stream has left, once it is over. -/
theorem of_lastCut {bytes record rest : Bytes}
    (h : lastCut limit ending bytes = .record record rest) :
    ending = .over ∧ record = bytes ∧ rest = [] ∧ bytes ≠ [] ∧ bytes.length < limit := by
  unfold lastCut at h
  split at h
  · simp at h
  · rename_i hbelow
    split at h
    · split at h
      · simp at h
      · rename_i hne
        obtain ⟨rfl, rfl⟩ := Cut.record.inj h
        exact ⟨rfl, rfl, rfl, fun hnil => hne (List.isEmpty_iff.mpr hnil), by omega⟩
    · simp at h

/-- **What the first cut takes**: the bytes before the first delimiter, or all that a stream has
    left that is over. -/
theorem of_firstCut {bytes record rest : Bytes}
    (h : firstCut delimiter limit ending bytes = .record record rest) :
    (bytes = record ++ delimiter ++ rest ∧
      Bytes.firstAt? delimiter bytes = some record.length ∧
      record.length + delimiter.length ≤ limit) ∨
    (ending = .over ∧ record = bytes ∧ rest = [] ∧ bytes ≠ [] ∧ bytes.length < limit ∧
      Bytes.firstAt? delimiter bytes = none) := by
  unfold firstCut at h
  split at h
  · rename_i i hi
    have hoccurs := (Bytes.firstAt?_eq_some_iff.mp hi).1
    have hend := hoccurs.add_length_le
    split at h
    · rename_i hfits
      obtain ⟨rfl, rfl⟩ := Cut.record.inj h
      -- the record is as long as the offset at which it ends
      have hlength : (bytes.take i).length = i := List.length_take_of_le (by omega)
      refine Or.inl ⟨?_, hlength.symm ▸ hi, hlength.symm ▸ hfits⟩
      obtain ⟨more, hmore⟩ := hoccurs.2
      have hrest : bytes.drop (i + delimiter.length) = more := by
        rw [← List.drop_drop, ← hmore, List.drop_left]
      rw [hrest, List.append_assoc, hmore, List.take_append_drop]
    · -- a delimiter beyond the limit leaves too much for a last record
      obtain ⟨-, -, -, -, hbelow⟩ := of_lastCut h
      omega
  · rename_i hnone
    obtain ⟨hover, hrecord, hrest, hne, hbelow⟩ := of_lastCut h
    exact Or.inr ⟨hover, hrecord, hrest, hne, hbelow, hnone⟩

/-- A cut takes something away. -/
theorem firstCut_length_lt {bytes record rest : Bytes}
    (h : firstCut delimiter limit ending bytes = .record record rest) :
    rest.length < bytes.length := by
  rcases of_firstCut h with ⟨rfl, hfirst, -⟩ | ⟨-, -, rfl, hne, -⟩
  · have hpos := List.length_pos_iff.mpr (Bytes.firstAt?_eq_some_iff.mp hfirst).1.1
    simp only [List.length_append]
    omega
  · exact List.length_pos_iff.mpr hne

/-- All records of the bytes of a stream that ends in a given way.  Every record takes something
    away, so there are only so many. -/
def cut (delimiter : Bytes) (limit : Nat) (ending : StreamEnd) (bytes : Bytes) : Scan :=
  match _h : firstCut delimiter limit ending bytes with
  | .record record rest => (cut delimiter limit ending rest).cons record
  | .stop outcome => { records := [], outcome }
termination_by bytes.length
decreasing_by exact firstCut_length_lt _h

/-- Where the first cut is a record, the others are the records of the rest. -/
theorem cut_of_record {bytes record rest : Bytes}
    (h : firstCut delimiter limit ending bytes = .record record rest) :
    cut delimiter limit ending bytes = (cut delimiter limit ending rest).cons record := by
  rw [cut]
  split
  · rename_i hcut
    obtain ⟨rfl, rfl⟩ := Cut.record.inj (hcut.symm.trans h)
    rfl
  · rename_i hcut
    cases hcut.symm.trans h

/-- Where the first cut is none, there are no records. -/
theorem cut_of_stop {bytes : Bytes} {outcome : Except FeedError Unit}
    (h : firstCut delimiter limit ending bytes = .stop outcome) :
    cut delimiter limit ending bytes = { records := [], outcome } := by
  rw [cut]
  split
  · rename_i hcut
    cases hcut.symm.trans h
  · rename_i hcut
    obtain rfl := Cut.stop.inj (hcut.symm.trans h)
    rfl

/-! ## What a cut takes away and what it leaves

  Facts about the cuts alone, for the statements in which no scanner occurs. -/

/-- A record and the bytes behind it are parts of the bytes, in this order. -/
theorem sublist_of_firstCut {bytes record rest : Bytes}
    (h : firstCut delimiter limit ending bytes = .record record rest) :
    (record ++ rest).Sublist bytes := by
  rcases of_firstCut h with ⟨rfl, -, -⟩ | ⟨-, rfl, rfl, -, -⟩
  · -- the delimiter between the two is left out
    exact (List.sublist_append_left record delimiter).append_right rest
  · rw [List.append_nil]

/-- The records are parts of the bytes, in order. -/
theorem cut_records_sublist (delimiter : Bytes) (limit : Nat) (ending : StreamEnd) (bytes : Bytes) :
    (cut delimiter limit ending bytes).records.flatten.Sublist bytes := by
  fun_induction cut delimiter limit ending bytes with
  | case1 bytes record rest hcut ih =>
    exact ((List.Sublist.append_left ih record)).trans (sublist_of_firstCut hcut)
  | case2 bytes outcome hcut => exact List.nil_sublist _

/-- Without a record, the last cut is the first. -/
theorem lastCut_of_stop {bytes : Bytes} {outcome : Except FeedError Unit}
    (h : firstCut delimiter limit ending bytes = .stop outcome) :
    lastCut limit ending bytes = .stop outcome := by
  unfold firstCut at h
  split at h
  · split at h
    · simp at h
    · exact h
  · exact h

/-- **Bytes below the limit have no record that is too large**: if the stream is over behind
    them, all of them are cut. -/
theorem cut_outcome_of_lt {bytes : Bytes} (h : bytes.length < limit) :
    (cut delimiter limit .over bytes).outcome = .ok () := by
  fun_induction cut delimiter limit .over bytes with
  | case1 bytes record rest hcut ih =>
    -- what is left of the bytes is below the limit as well
    have hshorter := firstCut_length_lt hcut
    exact ih (by omega)
  | case2 bytes outcome hcut =>
    -- no delimiter, and not too large: the stream has been over
    have hlast := lastCut_of_stop hcut
    rw [lastCut, if_neg (by omega)] at hlast
    split at hlast
    · exact (Cut.stop.inj hlast).symm
    · simp at hlast

/-- A cut that finds nothing wrong and no record found no bytes.  A record that is too large and a
    failed read are both something wrong, and anything else that is left is a record. -/
theorem eq_nil_of_firstCut {bytes : Bytes}
    (h : firstCut delimiter limit ending bytes = .stop (.ok ())) : bytes = [] := by
  have hlast := lastCut_of_stop h
  unfold lastCut at hlast
  split at hlast
  · simp at hlast
  · split at hlast
    · split at hlast
      · rename_i hempty
        exact List.isEmpty_iff.mp hempty
      · simp at hlast
    · simp at hlast

/-- No bytes, no records. -/
theorem cut_nil (h : 0 < limit) :
    cut delimiter limit .over [] = { records := [], outcome := .ok () } := by
  refine cut_of_stop ?_
  rw [firstCut, Bytes.firstAt?_nil_right]
  exact if_neg (by simp; omega)

/-! ## The first cut, seen from a part of the bytes

  The lemmas by which a scanner that has a part of the bytes knows the first cut of all of
  them: there is a delimiter in the part, or it is full, or nothing comes behind it. -/

/-- A delimiter in a part of the bytes ends the first record. -/
theorem firstCut_of_found {part bytes : Bytes} {i : Nat} (hpart : part <+: bytes)
    (hle : part.length ≤ limit) (hi : Bytes.firstAt? delimiter part = some i) :
    firstCut delimiter limit ending bytes =
      .record (part.take i) (bytes.drop (i + delimiter.length)) := by
  have hend := (Bytes.firstAt?_eq_some_iff.mp hi).1.add_length_le
  have htake : bytes.take i = part.take i := by
    obtain ⟨more, rfl⟩ := hpart
    exact List.take_append_of_le_length (by omega)
  rw [firstCut, Bytes.firstAt?_of_prefix hpart hi]
  simp only
  rw [if_pos (by omega), htake]

/-- A part that reaches the limit and shows no delimiter is too large. -/
theorem firstCut_of_full {part bytes : Bytes} (hpart : part <+: bytes)
    (hfull : limit ≤ part.length) (hvain : Bytes.firstAt? delimiter part = none) :
    firstCut delimiter limit ending bytes = .stop (.error (.tokenTooLarge limit)) := by
  have hlast : lastCut limit ending bytes = .stop (.error (.tokenTooLarge limit)) :=
    if_pos (Nat.le_trans hfull hpart.length_le)
  unfold firstCut
  split
  · -- a delimiter found only in the whole ends behind the part, so beyond the limit
    rename_i i hi
    have hlt := Bytes.length_lt_of_firstAt? hpart hvain hi
    rw [if_neg (by omega), hlast]
  · exact hlast

theorem firstCut_of_none {bytes : Bytes} (hvain : Bytes.firstAt? delimiter bytes = none) :
    firstCut delimiter limit ending bytes = lastCut limit ending bytes := by
  rw [firstCut, hvain]

/-- What is left of a stream that is over is the last record. -/
theorem firstCut_of_rest {bytes : Bytes} (hvain : Bytes.firstAt? delimiter bytes = none)
    (hne : bytes ≠ []) (hbelow : bytes.length < limit) :
    firstCut delimiter limit .over bytes = .record bytes [] := by
  rw [firstCut_of_none hvain, lastCut, if_neg (by omega)]
  exact if_neg (by simpa using hne)

end RecordFeed
