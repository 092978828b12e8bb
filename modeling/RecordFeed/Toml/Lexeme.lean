/-
  The smallest pieces of a TOML document.

  Reading is a function from the characters still to come to what was read and the characters left
  over (`Take`).  Nothing is ever put back (`Steady`), and a step that takes at least one character
  (`Hungry`) can be repeated as often as it succeeds (`many`): every round leaves fewer.
-/

namespace RecordFeed.Toml

/-- Reads something from the front of a text, or refuses. -/
abbrev Take (α : Type) := List Char → Option (α × List Char)

/-- Reading puts nothing back. -/
def Steady {α : Type} (read : Take α) : Prop :=
  ∀ s a rest, read s = some (a, rest) → rest.length ≤ s.length

/-- Reading takes something. -/
def Hungry {α : Type} (read : Take α) : Prop :=
  ∀ s a rest, read s = some (a, rest) → rest.length < s.length

/-- What is made of the thing read leaves the rest alone. -/
theorem Take.of_map {α β : Type} {f : α → β} {taken : Option (α × List Char)} {b : β}
    {rest : List Char} (h : (taken.map fun (a, rest) => (f a, rest)) = some (b, rest)) :
    ∃ a, taken = some (a, rest) := by
  obtain ⟨⟨a, rest'⟩, htaken, hsame⟩ := Option.map_eq_some_iff.mp h
  obtain ⟨-, rfl⟩ := Prod.mk.inj hsame
  exact ⟨a, htaken⟩

/-- Blanks separate words within a line. -/
def isBlank (c : Char) : Bool := c == ' ' || c == '\t'

/-- All but the control characters may stand in a comment. -/
def isCommentChar (c : Char) : Bool := c == '\t' || (' ' ≤ c && c ≤ '~') || '\x80' ≤ c

/-- A decimal digit. -/
def isDigit (c : Char) : Bool := '0' ≤ c && c ≤ '9'

/-- The value of a digit in a base up to sixteen. -/
def digitValue (c : Char) : Nat :=
  if '0' ≤ c ∧ c ≤ '9' then c.toNat - '0'.toNat
  else if 'a' ≤ c ∧ c ≤ 'f' then c.toNat - 'a'.toNat + 10
  else c.toNat - 'A'.toNat + 10

/-- A hexadecimal digit, in either case. -/
def isHexDigit (c : Char) : Bool :=
  isDigit c || ('a' ≤ c && c ≤ 'f') || ('A' ≤ c && c ≤ 'F')

/-- The number that digits denote. -/
def numeral (base : Nat) (digits : List Char) : Nat :=
  digits.foldl (fun n c => base * n + digitValue c) 0

/-- The same, if it is no greater than a bound. -/
def numeralWithin? (base bound : Nat) (digits : List Char) : Option Nat :=
  digits.foldlM
    (fun n c => if base * n + digitValue c ≤ bound then some (base * n + digitValue c) else none) 0

/-- The same, or the bound where it is greater. -/
def numeralUpTo (base bound : Nat) (digits : List Char) : Nat :=
  digits.foldl (fun n c => min bound (base * n + digitValue c)) 0

/-- What follows the blanks. -/
def skipBlanks (s : List Char) : List Char := s.dropWhile isBlank

/-- What follows a newline, if one comes next. -/
def afterNewline? : List Char → Option (List Char)
  | '\n' :: rest => some rest
  | '\r' :: '\n' :: rest => some rest
  | _ => none

theorem afterNewline?_length_lt {s rest : List Char} (h : afterNewline? s = some rest) :
    rest.length < s.length := by
  unfold afterNewline? at h
  split at h
  · obtain rfl := Option.some.inj h
    simp
  · obtain rfl := Option.some.inj h
    simp only [List.length_cons]
    omega
  · exact nomatch h

theorem length_dropWhile_le (p : Char → Bool) (s : List Char) :
    (s.dropWhile p).length ≤ s.length :=
  (List.dropWhile_sublist p).length_le

/-- Blanks are dropped, and nothing is put back. -/
theorem skipBlanks_length_le (s : List Char) : (skipBlanks s).length ≤ s.length :=
  length_dropWhile_le isBlank s

/-- What follows a comment, or all if none comes next. -/
def skipComment : List Char → List Char
  | '#' :: rest => rest.dropWhile isCommentChar
  | s => s

/-- A comment takes its mark and the rest of its line. -/
theorem skipComment_length_le (s : List Char) : (skipComment s).length ≤ s.length := by
  unfold skipComment
  split
  · exact Nat.le_succ_of_le (length_dropWhile_le _ _)
  · exact Nat.le_refl _

/-- What follows the end of a line: blanks, perhaps a comment, and then a newline or nothing. -/
def afterLine? (s : List Char) : Option (List Char) :=
  match skipComment (skipBlanks s) with
  | [] => some []
  | rest => afterNewline? rest

/-- The end of a line puts nothing back. -/
theorem afterLine?_length_le {s rest : List Char} (h : afterLine? s = some rest) :
    rest.length ≤ s.length := by
  have hblanks := skipBlanks_length_le s
  have hcomment := skipComment_length_le (skipBlanks s)
  unfold afterLine? at h
  split at h
  · obtain rfl := Option.some.inj h
    exact Nat.zero_le _
  · have := afterNewline?_length_lt h
    omega

/-- The end of a line takes something, unless the text is over.  At the end of the text there is
    nothing to take, and the end of the last line is still an end. -/
theorem afterLine?_length_lt {s rest : List Char} (hs : s ≠ []) (h : afterLine? s = some rest) :
    rest.length < s.length := by
  have hpos := List.length_pos_iff.mpr hs
  have hblanks := skipBlanks_length_le s
  have hcomment := skipComment_length_le (skipBlanks s)
  unfold afterLine? at h
  split at h
  · obtain rfl := Option.some.inj h
    exact hpos
  · have := afterNewline?_length_lt h
    omega

/-- What follows blanks, newlines and comments. -/
def skipTrivia : List Char → List Char
  | '#' :: rest => skipTrivia (rest.dropWhile isCommentChar)
  | '\n' :: rest => skipTrivia rest
  | '\r' :: '\n' :: rest => skipTrivia rest
  | c :: rest => if isBlank c then skipTrivia rest else c :: rest
  | [] => []
termination_by s => s.length
decreasing_by
  all_goals simp only [List.length_cons]
  · exact Nat.lt_succ_of_le (length_dropWhile_le _ _)
  all_goals omega

/-- By induction on what is passed over: a comment is dropped up to its line's end, anything else
    character by character. -/
theorem skipTrivia_length_le (s : List Char) : (skipTrivia s).length ≤ s.length := by
  fun_induction skipTrivia s with
  | case1 rest ih =>
    have := length_dropWhile_le isCommentChar rest
    simp only [List.length_cons]
    omega
  | case2 rest ih => exact Nat.le_succ_of_le ih
  | case3 rest ih => exact Nat.le_add_right_of_le (k := 2) ih
  | case4 c rest _ _ _ _ ih => exact Nat.le_succ_of_le ih
  | case5 | case6 => exact Nat.le_refl _

/-- What follows blanks and newlines. -/
def skipWhite : List Char → List Char
  | '\n' :: rest => skipWhite rest
  | '\r' :: '\n' :: rest => skipWhite rest
  | c :: rest => if isBlank c then skipWhite rest else c :: rest
  | [] => []

/-- As many of something as there are.  That each round takes something is a proof handed over and
    not a check made on the way: a check of the lengths in every round would cost as much as the
    reading. -/
def many {α : Type} (one : Take α) (hungry : Hungry one) (s : List Char) : List α × List Char :=
  match _h : one s with
  | none => ([], s)
  | some (a, rest) =>
    let (more, left) := many one hungry rest
    (a :: more, left)
termination_by s.length
decreasing_by exact hungry _ _ _ _h

/-- Where the first round fails there are none. -/
theorem many_of_none {α : Type} {one : Take α} {hungry : Hungry one} {s : List Char}
    (h : one s = none) : many one hungry s = ([], s) := by
  rw [many]
  split
  · rfl
  · rename_i hsome
    cases h.symm.trans hsome

/-- A round that succeeds gives the first of them, and the others come from the rest.  So a reading
    of many can be followed round by round, without unfolding the recursion on the length. -/
theorem many_of_some {α : Type} {one : Take α} {hungry : Hungry one} {s rest left : List Char}
    {a : α} {more : List α} (h : one s = some (a, rest))
    (hrest : many one hungry rest = (more, left)) : many one hungry s = (a :: more, left) := by
  rw [many]
  split
  · rename_i hnone
    cases hnone.symm.trans h
  · rename_i hsome
    cases hsome.symm.trans h
    rw [hrest]

/-- However many rounds there are, nothing is put back. -/
theorem many_length_le {α : Type} (one : Take α) (hungry : Hungry one) (s : List Char) :
    (many one hungry s).2.length ≤ s.length := by
  fun_induction many one hungry s with
  | case1 => exact Nat.le_refl _
  | case2 s a rest h more left hmore ih =>
    have := hungry _ _ _ h
    rw [hmore] at ih
    exact Nat.le_trans ih (Nat.le_of_lt this)

/-- A word, character by character. -/
def word : List Char → Take Unit
  | [], s => some ((), s)
  | c :: cs, d :: rest => if c = d then word cs rest else none
  | _ :: _, [] => none

/-- A word takes as many characters as it has. -/
theorem word_length {w s rest : List Char} (h : word w s = some ((), rest)) :
    rest.length + w.length = s.length := by
  fun_induction word w s with
  | case1 s =>
    obtain rfl := congrArg Prod.snd (Option.some.inj h)
    rfl
  | case2 c cs rest' ih =>
    have := ih h
    simp only [List.length_cons]
    omega
  | case3 | case4 => exact nomatch h

theorem word_steady (w : List Char) : Steady (word w) := by
  intro s a rest h
  have := word_length h
  omega

example : afterLine? " \t# all of it\nnext".toList = some "next".toList := by decide
example : afterLine? " x".toList = none := by decide

end RecordFeed.Toml
