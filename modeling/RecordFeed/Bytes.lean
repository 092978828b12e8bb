/-
  Byte strings and the search for a delimiter in them.

  A byte string is a list of bytes, so that cutting one is `take` and `drop` and every law about a
  cut is a law about lists.  The one operation of its own is `offset?`: where does a needle occur
  for the first time?  Three facts about it carry everything that is built on top:

  * `offset?_le`        an occurrence lies wholly inside the bytes searched;
  * `offset?_occurs`    at the offset found, the needle really stands there;
  * `offset?_pos`       an occurrence has a needle of at least one byte (the empty one never occurs).
-/

namespace RecordFeed

/-- A byte string. -/
abbrev Bytes := List UInt8

namespace Bytes

/-- The UTF-8 bytes of a text. -/
def ofString (s : String) : Bytes :=
  s.toByteArray.data.toList

@[simp] theorem length_ofString (s : String) : (ofString s).length = s.utf8ByteSize := rfl

/-- The search loop: `i` counts the bytes already passed, so an answer is an offset into the
    bytes the search began with. -/
def offsetFrom? (needle : Bytes) : Bytes → Nat → Option Nat
  | [], _ => none
  | b :: rest, i =>
    if needle.isPrefixOf (b :: rest) then some i else offsetFrom? needle rest (i + 1)

/-- The least offset at which `needle` occurs wholly inside `hay`.  An empty needle does not
    occur: it would be found everywhere and cut nothing off. -/
def offset? (needle hay : Bytes) : Option Nat :=
  if needle.isEmpty then none else offsetFrom? needle hay 0

/-- What an answer of the loop says: it is no smaller than the count the loop began with, and so far
    behind the beginning of the bytes, and still inside them, the needle stands.  The count is
    carried as a variable, because the recursive call passes one byte more. -/
theorem offsetFrom?_spec {needle : Bytes} :
    ∀ {hay : Bytes} {i j : Nat}, offsetFrom? needle hay i = some j →
      i ≤ j ∧ needle <+: hay.drop (j - i) ∧ j - i < hay.length := by
  intro hay
  induction hay with
  | nil => intro i j h; simp [offsetFrom?] at h
  | cons b rest ih =>
    intro i j h
    rw [offsetFrom?] at h
    split at h
    · -- found at the very first byte
      rename_i hp
      obtain rfl : i = j := by simpa using h
      exact ⟨Nat.le_refl _, by simpa using hp, by simp⟩
    · -- found later: one byte less to drop, counted from the byte behind
      obtain ⟨hle, hpre, hlt⟩ := ih h
      have hsucc : j - i = (j - (i + 1)) + 1 := by omega
      refine ⟨by omega, ?_, by simp only [List.length_cons]; omega⟩
      rw [hsucc, List.drop_succ_cons]
      exact hpre

/-- The count of the bytes passed only shifts the answer. -/
theorem offsetFrom?_eq_map (needle hay : Bytes) (i : Nat) :
    offsetFrom? needle hay i = (offsetFrom? needle hay 0).map (i + ·) := by
  induction hay generalizing i with
  | nil => rfl
  | cons b rest ih =>
    simp only [offsetFrom?]
    split
    · simp
    · -- both sides from the byte behind, where one more byte has been passed
      rw [ih (i + 1), ih (0 + 1), Option.map_map]
      congr 1
      funext j
      simp only [Function.comp]
      omega

/-- Where the search points, the needle stands. -/
theorem offset?_occurs {needle hay : Bytes} {i : Nat} (h : offset? needle hay = some i) :
    needle <+: hay.drop i := by
  unfold offset? at h
  split at h
  · simp at h
  · simpa using (offsetFrom?_spec h).2.1

/-- An occurrence ends inside the bytes searched. -/
theorem offset?_le {needle hay : Bytes} {i : Nat} (h : offset? needle hay = some i) :
    i + needle.length ≤ hay.length := by
  have hlen := (offset?_occurs h).length_le
  unfold offset? at h
  split at h
  · simp at h
  · -- the needle is a prefix of what is left at the offset, and the offset is inside, so the
    -- difference of the lengths is not cut off at zero
    have := (offsetFrom?_spec h).2.2
    simp only [List.length_drop] at hlen
    omega

/-- Only a needle of at least one byte occurs. -/
theorem offset?_pos {needle hay : Bytes} {i : Nat} (h : offset? needle hay = some i) :
    0 < needle.length := by
  unfold offset? at h
  split at h
  · simp at h
  · rename_i hne
    cases needle with
    | nil => simp at hne
    | cons b rest => simp

/-- The empty needle is looked for nowhere. -/
@[simp] theorem offset?_nil_left (hay : Bytes) : offset? [] hay = none := rfl

/-- Nothing stands in no bytes. -/
@[simp] theorem offset?_nil_right (needle : Bytes) : offset? needle [] = none := by
  unfold offset?
  split <;> rfl

example : offset? (ofString "ab") (ofString "aab") = some 1 := by decide
example : offset? (ofString "aa") (ofString "aaa") = some 0 := by decide

end Bytes

end RecordFeed
