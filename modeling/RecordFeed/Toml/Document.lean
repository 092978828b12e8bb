/-
  A whole TOML document: lines, each of which adds to the document read so far.

  An assignment adds to the table whose header came last, and to the root before the first header.
  A header opens a table, a double header a further table of an array.  The answer lists the keys
  of the root in document order, where a table counts from its own header on, if it has one.
-/
import RecordFeed.Toml.Item

namespace RecordFeed.Toml

/-- What one line says. -/
inductive Statement where
  | blank
  | assign (path : List String) (key : String) (value : Value)
  | openTable (path : List String) (key : String)
  | openElement (path : List String) (key : String)

/-- The document so far, and the path of the table that assignments go to. -/
structure Draft where
  root : Entries := []
  header : List String := []

namespace Draft

/-- Adds what a line says, unless it contradicts what is already there. -/
def apply (d : Draft) : Statement → Option Draft
  | .blank => some d
  | .assign path key value =>
    (Entries.updateAt false (fun _ entries => entries.addValue path key value .header)
      d.header .header d.root).map fun root => { d with root }
  | .openTable path key =>
    (Entries.updateAt false (fun _ entries => entries.openTable key) path .header d.root).map
      fun root => { root, header := path ++ [key] }
  | .openElement path key =>
    (Entries.updateAt false (fun _ entries => entries.openElement key) path .header d.root).map
      fun root => { root, header := path ++ [key] }

end Draft

/-- The end of a line. -/
def lineEnd : Take Unit := fun s => (afterLine? s).map fun rest => ((), rest)

/-- A header behind its opening brackets: a key, the brackets that close it, and the end of the
    line.  What the header opens depends on how many brackets there are. -/
def headerRest (closing : List Char) (opens : List String → String → Statement) :
    Take Statement := fun s => do
  let ((path, last), s) ← key s
  let ((), s) ← word closing s
  let ((), s) ← lineEnd s
  return (opens path last, s)

/-- An assignment with the end of its line. -/
def assignmentLine : Take Statement := fun s => do
  let (((path, last), v), s) ← assignment value s
  let ((), s) ← lineEnd s
  return (.assign path last v, s)

/-- One line, if there is one. -/
def statement : Take Statement := fun s =>
  if s.isEmpty then none
  else
    match skipBlanks s with
    | '[' :: '[' :: rest => headerRest [']', ']'] .openElement rest
    | '[' :: rest => headerRest [']'] .openTable rest
    | rest =>
      match afterLine? rest with
      | some s => some (.blank, s)
      | none => assignmentLine rest

theorem lineEnd_steady : Steady lineEnd := by
  intro s a rest h
  obtain ⟨rest', hline, hsame⟩ := Option.map_eq_some_iff.mp h
  obtain ⟨-, rfl⟩ := Prod.mk.inj hsame
  exact afterLine?_length_le hline

/-- A header puts nothing back, whatever closes it and whatever it opens. -/
theorem headerRest_steady (closing : List Char) (opens : List String → String → Statement) :
    Steady (headerRest closing opens) := by
  intro s a rest h
  simp only [headerRest, Option.bind_eq_bind, Option.bind_eq_some_iff] at h
  obtain ⟨⟨_, s₁⟩, h₁, ⟨_, s₂⟩, h₂, ⟨_, s₃⟩, h₃, hsame⟩ := h
  obtain ⟨-, rfl⟩ := Prod.mk.inj (Option.some.inj hsame)
  have := key_steady _ _ _ h₁
  have := word_steady _ _ _ _ h₂
  have := lineEnd_steady _ _ _ h₃
  dsimp only at *
  omega

/-- An assignment takes at least its equals sign, and the end of the line behind it puts nothing
    back. -/
theorem assignmentLine_hungry : Hungry assignmentLine := by
  intro s a rest h
  simp only [assignmentLine, Option.bind_eq_bind, Option.bind_eq_some_iff] at h
  obtain ⟨⟨_, s₁⟩, h₁, ⟨_, s₂⟩, h₂, hsame⟩ := h
  obtain ⟨-, rfl⟩ := Prod.mk.inj (Option.some.inj hsame)
  have := assignment_hungry value_steady _ _ _ h₁
  have := lineEnd_steady _ _ _ h₂
  dsimp only at *
  omega

/-- A line takes something: a bracket, an equals sign, or, if it is blank, the characters up to the
    next line.  Only the empty text has no line, and so lines can be read one after another until
    there are none. -/
theorem statement_hungry : Hungry statement := by
  intro s a rest h
  have hblanks := skipBlanks_length_le s
  unfold statement at h
  split at h
  · simp at h
  · rename_i hempty
    have hpos : 0 < s.length := List.length_pos_iff.mpr fun hnil => hempty (by rw [hnil]; rfl)
    split at h
    · -- a double bracket and then the rest of a header
      rename_i opened hopened
      have := headerRest_steady _ _ _ _ _ h
      rw [hopened] at hblanks
      simp only [List.length_cons] at hblanks
      omega
    · -- one bracket and then the rest of a header
      rename_i opened _ hopened
      have := headerRest_steady _ _ _ _ _ h
      rw [hopened] at hblanks
      simp only [List.length_cons] at hblanks
      omega
    · split at h
      · rename_i hline
        obtain ⟨-, rfl⟩ := Prod.mk.inj (Option.some.inj h)
        -- a blank line: either blanks up to the end of the text, or something behind them
        by_cases hover : skipBlanks s = []
        · have := afterLine?_length_le hline
          rw [hover, List.length_nil] at this
          omega
        · have := afterLine?_length_lt hover hline
          omega
      · have := assignmentLine_hungry _ _ _ h
        omega

/-- A byte order mark at the beginning does not count. -/
def skipMark : List Char → List Char
  | '\ufeff' :: rest => rest
  | s => s

/-- The entries of a document, or `none` if the text is no document. -/
def document? (text : String) : Option (List (String × Value)) := do
  let (statements, rest) := many statement statement_hungry (skipMark text.toList)
  guard rest.isEmpty
  let draft ← statements.foldlM Draft.apply {}
  return Entries.toValues draft.root

/-- A text that is lines to its end is the document that these make. -/
theorem document?_of_statements {text : String} {statements : List Statement} {draft : Draft}
    {entries : List (String × Value)}
    (hread : many statement statement_hungry (skipMark text.toList) = (statements, []))
    (hdraft : statements.foldlM Draft.apply {} = some draft)
    (hentries : Entries.toValues draft.root = entries) : document? text = some entries := by
  unfold document?
  rw [hread]
  apply Option.bind_eq_some_iff.mpr
  refine ⟨(), rfl, Option.bind_eq_some_iff.mpr ⟨draft, hdraft, ?_⟩⟩
  exact congrArg some hentries

end RecordFeed.Toml
