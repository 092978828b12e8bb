/-
  Keys and values of a TOML document.

  A value is a scalar, an array or an inline table.  Arrays run over lines and may end in a comma;
  inline tables do neither.  Nesting is bounded, and the bound is what the reading of values
  recurses on.
-/
import RecordFeed.Toml.Moment
import RecordFeed.Toml.Node
import RecordFeed.Toml.Number
import RecordFeed.Toml.Quotation

namespace RecordFeed.Toml

/-- Neither brackets nor the parts of a key may go as deep as this. -/
def depthLimit : Nat := 80

/-! ## Keys

  A key is a list of parts, with dots between them.  Its last part is kept apart, for it names
  a value and the others name tables. -/

/-- A character that a key may have without quotes. -/
def isBareKeyChar (c : Char) : Bool :=
  isDigit c || ('a' ≤ c && c ≤ 'z') || ('A' ≤ c && c ≤ 'Z') || c == '-' || c == '_'

/-- One part of a key, with the blanks around it. -/
def keyPart : Take String := fun s =>
  let s := skipBlanks s
  let bare := s.takeWhile isBareKeyChar
  if bare.isEmpty then (lineString s).map fun (key, rest) => (key, skipBlanks rest)
  else some (String.ofList bare, skipBlanks (s.dropWhile isBareKeyChar))

/-- A part of a key and the blanks around it are taken, and nothing is put back. -/
theorem keyPart_steady : Steady keyPart := by
  intro s k rest h
  have hs := skipBlanks_length_le s
  unfold keyPart at h
  simp only at h
  split at h
  · obtain ⟨⟨k', rest'⟩, hkey, hsame⟩ := Option.map_eq_some_iff.mp h
    obtain ⟨-, rfl⟩ := Prod.mk.inj hsame
    have := lineString_steady _ _ _ hkey
    have := skipBlanks_length_le rest'
    dsimp only
    omega
  · obtain ⟨-, rfl⟩ := Prod.mk.inj (Option.some.inj h)
    have := skipBlanks_length_le ((skipBlanks s).dropWhile isBareKeyChar)
    have := length_dropWhile_le isBareKeyChar (skipBlanks s)
    omega

/-- A further part of a key, behind a dot. -/
def dottedPart : Take String
  | '.' :: rest => keyPart rest
  | _ => none

/-- A further part takes at least its dot, so the parts of a key come to an end. -/
theorem dottedPart_hungry : Hungry dottedPart := by
  intro s k rest h
  unfold dottedPart at h
  split at h
  · exact Nat.lt_succ_of_le (keyPart_steady _ _ _ h)
  · simp at h

/-- A key: the path to a table, and the last part. -/
def key : Take (List String × String) := fun s => do
  let (first, s) ← keyPart s
  let (more, s) := many dottedPart dottedPart_hungry s
  let parts := first :: more
  guard (parts.length < depthLimit)
  return ((parts.dropLast, parts.getLast?.getD first), s)

/-- The parts of a key are read one behind the other. -/
theorem key_steady : Steady key := by
  intro s k rest h
  unfold key at h
  obtain ⟨⟨first, s₁⟩, h₁, h⟩ := Option.bind_eq_some_iff.mp h
  obtain ⟨-, -, hsame⟩ := Option.bind_eq_some_iff.mp h
  obtain ⟨-, rfl⟩ := Prod.mk.inj (Option.some.inj hsame)
  exact Nat.le_trans (many_length_le dottedPart dottedPart_hungry s₁) (keyPart_steady _ _ _ h₁)

/-- A key, an equals sign and a value. -/
def assignment (value : Take Value) : Take ((List String × String) × Value) := fun s => do
  let (k, s) ← key s
  let ((), s) ← word ['='] s
  let (v, s) ← value (skipBlanks s)
  return ((k, v), s)

/-- An assignment takes at least its equals sign. -/
theorem assignment_hungry {value : Take Value} (steady : Steady value) :
    Hungry (assignment value) := by
  intro s a rest h
  simp only [assignment, Option.bind_eq_bind, Option.bind_eq_some_iff] at h
  obtain ⟨⟨k, s₁⟩, h₁, ⟨_, s₂⟩, h₂, ⟨v, s₃⟩, h₃, hsame⟩ := h
  obtain ⟨-, rfl⟩ := Prod.mk.inj (Option.some.inj hsame)
  have := key_steady _ _ _ h₁
  have := word_length h₂
  have := skipBlanks_length_le s₂
  have := steady _ _ _ h₃
  simp only [List.length_cons, List.length_nil] at *
  omega

/-! ## Values

  A value is read by a reader of values one level below.  So the readers of arrays and of
  inline tables are given that reader as a parameter, together with the proof that it puts
  nothing back, and the recursion over the levels comes last. -/

/-- A value that is neither array nor table.  The first character decides for a string or a truth
    value; numbers and moments can begin alike, so a moment is tried first and an integer last. -/
def scalarValue : Take Value := fun s =>
  match s with
  | '"' :: _ => (anyString s).map fun (text, rest) => (.string text, rest)
  | '\'' :: _ => (anyString s).map fun (text, rest) => (.string text, rest)
  | 't' :: _ => (word "true".toList s).map fun ((), rest) => (.boolean true, rest)
  | 'f' :: _ => (word "false".toList s).map fun ((), rest) => (.boolean false, rest)
  | _ =>
    match moment s with
    | some ((), rest) => some (.moment, rest)
    | none =>
      match float s with
      | some (x, rest) => some (.float x, rest)
      | none => (integer s).map fun (n, rest) => (.integer n, rest)

/-- Whatever kind of value was read has put nothing back. -/
theorem scalarValue_steady : Steady scalarValue := by
  intro s v rest h
  unfold scalarValue at h
  split at h
  · obtain ⟨_, hrest⟩ := Take.of_map h
    exact anyString_steady _ _ _ hrest
  · obtain ⟨_, hrest⟩ := Take.of_map h
    exact anyString_steady _ _ _ hrest
  · obtain ⟨⟨_, _⟩, hrest, hsame⟩ := Option.map_eq_some_iff.mp h
    obtain ⟨-, rfl⟩ := Prod.mk.inj hsame
    exact word_steady _ _ _ _ hrest
  · obtain ⟨⟨_, _⟩, hrest, hsame⟩ := Option.map_eq_some_iff.mp h
    obtain ⟨-, rfl⟩ := Prod.mk.inj hsame
    exact word_steady _ _ _ _ hrest
  · split at h
    · rename_i hmoment
      obtain ⟨-, rfl⟩ := Prod.mk.inj (Option.some.inj h)
      exact moment_steady _ _ _ hmoment
    · split at h
      · rename_i hfloat
        obtain ⟨-, rfl⟩ := Prod.mk.inj (Option.some.inj h)
        exact float_steady _ _ _ hfloat
      · obtain ⟨_, hrest⟩ := Take.of_map h
        exact integer_steady _ _ _ hrest

/-- An element of an array with the space around it. -/
def element (value : Take Value) : Take Value := fun s =>
  (value (skipTrivia s)).map fun (v, rest) => (v, skipTrivia rest)

/-- The space around an element is dropped. -/
theorem element_steady {value : Take Value} (steady : Steady value) : Steady (element value) := by
  intro s v rest h
  obtain ⟨⟨v', rest'⟩, hvalue, hsame⟩ := Option.map_eq_some_iff.mp h
  obtain ⟨-, rfl⟩ := Prod.mk.inj hsame
  have := skipTrivia_length_le s
  have := steady _ _ _ hvalue
  have := skipTrivia_length_le rest'
  omega

/-- A further element, behind a comma. -/
def nextElement (value : Take Value) : Take Value
  | ',' :: rest => element value rest
  | _ => none

/-- A further element takes at least its comma. -/
theorem nextElement_hungry {value : Take Value} (steady : Steady value) :
    Hungry (nextElement value) := by
  intro s v rest h
  unfold nextElement at h
  split at h
  · exact Nat.lt_succ_of_le (element_steady steady _ _ _ h)
  · simp at h

/-- What follows a comma, or all if none comes next. -/
def skipComma : List Char → List Char
  | ',' :: rest => rest
  | s => s

/-- At most a comma is dropped. -/
theorem skipComma_length_le (s : List Char) : (skipComma s).length ≤ s.length := by
  unfold skipComma
  split
  · exact Nat.le_succ _
  · exact Nat.le_refl _

/-- The elements of an array, as many as there are. -/
def elements (value : Take Value) (steady : Steady value) (s : List Char) :
    List Value × List Char :=
  match element value s with
  | none => ([], s)
  | some (first, s) =>
    let (more, s) := many (nextElement value) (nextElement_hungry steady) s
    (first :: more, skipComma s)

/-- However many elements there are, nothing is put back. -/
theorem elements_length_le {value : Take Value} (steady : Steady value) (s : List Char) :
    (elements value steady s).2.length ≤ s.length := by
  unfold elements
  split
  · exact Nat.le_refl _
  · rename_i rest hfirst
    have := element_steady steady _ _ _ hfirst
    have := many_length_le (nextElement value) (nextElement_hungry steady) rest
    have := skipComma_length_le (many (nextElement value) (nextElement_hungry steady) rest).2
    dsimp only
    omega

/-- The elements of an array and its closing bracket. -/
def arrayRest (value : Take Value) (steady : Steady value) : Take Value := fun s => do
  let (items, s) := elements value steady s
  let ((), s) ← word [']'] (skipTrivia s)
  return (.array items, s)

/-- The closing bracket stands behind the elements and the space after them. -/
theorem arrayRest_steady {value : Take Value} (steady : Steady value) :
    Steady (arrayRest value steady) := by
  intro s v rest h
  simp only [arrayRest, Option.bind_eq_bind, Option.bind_eq_some_iff] at h
  obtain ⟨⟨_, s₁⟩, h₁, hsame⟩ := h
  obtain ⟨-, rfl⟩ := Prod.mk.inj (Option.some.inj hsame)
  have := elements_length_le steady s
  have := skipTrivia_length_le (elements value steady s).2
  have := word_steady _ _ _ _ h₁
  dsimp only at *
  omega

/-- A further assignment of an inline table, behind a comma. -/
def nextAssignment (value : Take Value) : Take ((List String × String) × Value)
  | ',' :: rest => (assignment value rest).map fun (a, rest) => (a, skipBlanks rest)
  | _ => none

/-- A further assignment takes at least its comma. -/
theorem nextAssignment_hungry {value : Take Value} (steady : Steady value) :
    Hungry (nextAssignment value) := by
  intro s a rest h
  unfold nextAssignment at h
  split at h
  · obtain ⟨⟨a', rest'⟩, hnext, hsame⟩ := Option.map_eq_some_iff.mp h
    obtain ⟨-, rfl⟩ := Prod.mk.inj hsame
    have := assignment_hungry steady _ _ _ hnext
    have := skipBlanks_length_le rest'
    simp only [List.length_cons]
    omega
  · simp at h

/-- The assignments of an inline table, as many as there are. -/
def assignments (value : Take Value) (steady : Steady value) (s : List Char) :
    List ((List String × String) × Value) × List Char :=
  match assignment value s with
  | none => ([], s)
  | some (first, s) =>
    let (more, s) := many (nextAssignment value) (nextAssignment_hungry steady) (skipBlanks s)
    (first :: more, s)

/-- However many assignments there are, nothing is put back. -/
theorem assignments_length_le {value : Take Value} (steady : Steady value) (s : List Char) :
    (assignments value steady s).2.length ≤ s.length := by
  unfold assignments
  split
  · exact Nat.le_refl _
  · rename_i rest hfirst
    have := assignment_hungry steady _ _ _ hfirst
    have := skipBlanks_length_le rest
    have := many_length_le (nextAssignment value) (nextAssignment_hungry steady) (skipBlanks rest)
    dsimp only
    omega

/-- The assignments of an inline table and its closing brace. -/
def inlineTableRest (value : Take Value) (steady : Steady value) : Take Value := fun s => do
  let (assigned, s) := assignments value steady s
  let entries ← assigned.foldlM
    (fun (entries : Entries) a => entries.addValue a.1.1 a.1.2 a.2 .dotted) []
  let ((), s) ← word ['}'] (skipBlanks s)
  return (.table (Entries.toValues entries), s)

/-- The closing brace stands behind the assignments; that they fit together changes nothing about
    what they take. -/
theorem inlineTableRest_steady {value : Take Value} (steady : Steady value) :
    Steady (inlineTableRest value steady) := by
  intro s v rest h
  simp only [inlineTableRest, Option.bind_eq_bind, Option.bind_eq_some_iff] at h
  obtain ⟨entries, -, ⟨_, s₁⟩, h₁, hsame⟩ := h
  obtain ⟨-, rfl⟩ := Prod.mk.inj (Option.some.inj hsame)
  have := assignments_length_le steady s
  have := skipBlanks_length_le (assignments value steady s).2
  have := word_steady _ _ _ _ h₁
  dsimp only at *
  omega

/-- A value without brackets. -/
def flatValue : Take Value := fun s =>
  match s with
  | '[' :: _ => none
  | '{' :: _ => none
  | _ => scalarValue s

/-- A value without brackets is a scalar. -/
theorem flatValue_steady : Steady flatValue := by
  intro s v rest h
  unfold flatValue at h
  split at h
  · simp at h
  · simp at h
  · exact scalarValue_steady _ _ _ h

/-- A value in whose brackets others stand. -/
def valueOver (inner : Take Value) (steady : Steady inner) : Take Value := fun s =>
  match s with
  | '[' :: rest => arrayRest inner steady rest
  | '{' :: rest => inlineTableRest inner steady rest
  | _ => scalarValue s

/-- A bracket, and behind it only what puts nothing back. -/
theorem valueOver_steady {inner : Take Value} (steady : Steady inner) :
    Steady (valueOver inner steady) := by
  intro s v rest h
  unfold valueOver at h
  split at h
  · exact Nat.le_succ_of_le (arrayRest_steady steady _ _ _ h)
  · exact Nat.le_succ_of_le (inlineTableRest_steady steady _ _ _ h)
  · exact scalarValue_steady _ _ _ h

/-- A value in which brackets go at most so deep.  The reading and the proof that it puts nothing
    back are made together, for the one of a depth needs the other of the depth below. -/
def valueWithin : Nat → { value : Take Value // Steady value }
  | 0 => ⟨flatValue, flatValue_steady⟩
  | depth + 1 =>
    let inner := valueWithin depth
    ⟨valueOver inner.1 inner.2, valueOver_steady inner.2⟩

/-- A value of a document. -/
def value : Take Value := (valueWithin (depthLimit - 1)).1

/-- The bound on the nesting bears the proof along with the reading. -/
theorem value_steady : Steady value := (valueWithin (depthLimit - 1)).2

end RecordFeed.Toml
