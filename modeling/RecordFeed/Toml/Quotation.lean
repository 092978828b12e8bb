/-
  Strings of a TOML document, in their four spellings.

  A basic string stands between double quotes and knows escapes; a literal string stands between
  single quotes and knows none.  Either may be written between triple quotes instead, and then runs
  over several lines: a newline right after the opening is dropped, a newline inside is one line
  feed however it is written, and one or two quotes may stand before the closing three.  In a basic
  one, a backslash at the end of a line swallows all white space up to the next character.
-/
import RecordFeed.Toml.Lexeme

namespace RecordFeed.Toml

/-- A character that stands for itself between double quotes. -/
def isBasicChar (c : Char) : Bool :=
  c == '\t' || c == ' ' || c == '!' || ('#' ≤ c && c ≤ '[') || (']' ≤ c && c ≤ '~') || '\x80' ≤ c

/-- A character that stands for itself between single quotes. -/
def isLiteralChar (c : Char) : Bool :=
  c == '\t' || (' ' ≤ c && c ≤ '&') || ('(' ≤ c && c ≤ '~') || '\x80' ≤ c

/-- A character given by a fixed number of hexadecimal digits. -/
def scalar (digits : Nat) : Take Char := fun s =>
  let shown := s.take digits
  let n := numeral 16 shown
  if shown.length = digits ∧ shown.all isHexDigit ∧ n.isValidChar then
    some (Char.ofNat n, s.drop digits)
  else none

/-- The character that an escape denotes, read from behind its backslash. -/
def escape : Take Char
  | 'b' :: rest => some ('\x08', rest)
  | 'f' :: rest => some ('\x0c', rest)
  | 'n' :: rest => some ('\n', rest)
  | 'r' :: rest => some ('\r', rest)
  | 't' :: rest => some ('\t', rest)
  | '"' :: rest => some ('"', rest)
  | '\\' :: rest => some ('\\', rest)
  | 'u' :: rest => scalar 4 rest
  | 'U' :: rest => scalar 8 rest
  | _ => none

/-- So many digits are taken, or nothing is read. -/
theorem scalar_length_le {digits : Nat} {s rest : List Char} {c : Char}
    (h : scalar digits s = some (c, rest)) : rest.length ≤ s.length := by
  unfold scalar at h
  simp only at h
  split at h
  · simp only [Option.some.injEq, Prod.mk.injEq] at h
    rw [← h.2]
    simp
  · simp at h

/-- An escape takes its letter, and the two numbered ones digits as well. -/
theorem escape_length_le {s rest : List Char} {c : Char} (h : escape s = some (c, rest)) :
    rest.length ≤ s.length := by
  unfold escape at h
  split at h
  all_goals try
    simp only [Option.some.injEq, Prod.mk.injEq] at h
    rw [← h.2]
    simp
  · exact Nat.le_succ_of_le (scalar_length_le h)
  · exact Nat.le_succ_of_le (scalar_length_le h)
  · simp at h

/-- The rest of a basic string, up to and with its closing quote. -/
def basicRest : List Char → Option (List Char × List Char)
  | [] => none
  | '"' :: rest => some ([], rest)
  | '\\' :: rest =>
    match _h : escape rest with
    | none => none
    | some (c, rest) => (basicRest rest).map fun (cs, left) => (c :: cs, left)
  | c :: rest =>
    if isBasicChar c then (basicRest rest).map fun (cs, left) => (c :: cs, left) else none
termination_by s => s.length
decreasing_by
  · simpa using Nat.lt_succ_of_le (escape_length_le _h)
  · simp

/-- What follows a backslash that ends its line, without the white space. -/
def continuation? (s : List Char) : Option (List Char) :=
  (afterNewline? (skipBlanks s)).map skipWhite

/-- White space is dropped character by character; a newline may be two of them. -/
theorem skipWhite_length_le (s : List Char) : (skipWhite s).length ≤ s.length := by
  fun_induction skipWhite s with
  | case1 rest ih => exact Nat.le_succ_of_le ih
  | case2 rest ih => exact Nat.le_add_right_of_le (k := 2) ih
  | case3 c rest _ _ _ ih => exact Nat.le_succ_of_le ih
  | case4 | case5 => exact Nat.le_refl _

/-- What a backslash swallows at the end of its line is dropped and nothing is put back. -/
theorem continuation?_length_le {s rest : List Char} (h : continuation? s = some rest) :
    rest.length ≤ s.length := by
  unfold continuation? at h
  obtain ⟨t, ht, rfl⟩ := Option.map_eq_some_iff.mp h
  have h1 := skipWhite_length_le t
  have h2 := afterNewline?_length_lt ht
  have h3 := skipBlanks_length_le s
  omega

/-- The rest of a basic string over several lines, up to and with its closing quotes. -/
def multilineBasicRest : List Char → Option (List Char × List Char)
  | [] => none
  | '"' :: '"' :: '"' :: '"' :: '"' :: rest => some (['"', '"'], rest)
  | '"' :: '"' :: '"' :: '"' :: rest => some (['"'], rest)
  | '"' :: '"' :: '"' :: rest => some ([], rest)
  | '"' :: rest => (multilineBasicRest rest).map fun (cs, left) => ('"' :: cs, left)
  | '\\' :: rest =>
    match _hc : continuation? rest with
    | some rest => multilineBasicRest rest
    | none =>
      match _he : escape rest with
      | none => none
      | some (c, rest) => (multilineBasicRest rest).map fun (cs, left) => (c :: cs, left)
  | '\n' :: rest => (multilineBasicRest rest).map fun (cs, left) => ('\n' :: cs, left)
  | '\r' :: '\n' :: rest => (multilineBasicRest rest).map fun (cs, left) => ('\n' :: cs, left)
  | c :: rest =>
    if isBasicChar c then (multilineBasicRest rest).map fun (cs, left) => (c :: cs, left) else none
termination_by s => s.length
decreasing_by
  · simp
  · simpa using Nat.lt_succ_of_le (continuation?_length_le _hc)
  · simpa using Nat.lt_succ_of_le (escape_length_le _he)
  · simp
  · simp only [List.length_cons]; omega
  · simp

/-- The rest of a literal string, up to and with its closing quote. -/
def literalRest : List Char → Option (List Char × List Char)
  | [] => none
  | '\'' :: rest => some ([], rest)
  | c :: rest =>
    if isLiteralChar c then (literalRest rest).map fun (cs, left) => (c :: cs, left) else none

/-- The rest of a literal string over several lines, up to and with its closing quotes. -/
def multilineLiteralRest : List Char → Option (List Char × List Char)
  | [] => none
  | '\'' :: '\'' :: '\'' :: '\'' :: '\'' :: rest => some (['\'', '\''], rest)
  | '\'' :: '\'' :: '\'' :: '\'' :: rest => some (['\''], rest)
  | '\'' :: '\'' :: '\'' :: rest => some ([], rest)
  | '\'' :: rest => (multilineLiteralRest rest).map fun (cs, left) => ('\'' :: cs, left)
  | '\n' :: rest => (multilineLiteralRest rest).map fun (cs, left) => ('\n' :: cs, left)
  | '\r' :: '\n' :: rest => (multilineLiteralRest rest).map fun (cs, left) => ('\n' :: cs, left)
  | c :: rest =>
    if isLiteralChar c then (multilineLiteralRest rest).map fun (cs, left) => (c :: cs, left)
    else none

/-! ## Nothing is put back

  Every reader takes a part of what it is given, or all.  The lemmas have the shape of the
  readers, and whoever reads strings as a part of something longer needs nothing else of them. -/

/-- By induction on the characters: each gives one of the string, an escape at the cost of more than
    one. -/
theorem basicRest_length_le {s cs left : List Char} (h : basicRest s = some (cs, left)) :
    left.length ≤ s.length := by
  fun_induction basicRest s generalizing cs with
  | case1 | case3 | case6 => simp at h
  | case2 rest =>
    obtain ⟨-, rfl⟩ := Prod.mk.inj (Option.some.inj h)
    exact Nat.le_succ _
  | case4 rest c rest' he ih =>
    obtain ⟨_, hrest⟩ := Take.of_map h
    have := escape_length_le he
    have := ih hrest
    simp only [List.length_cons]
    omega
  | case5 c rest _ _ _ ih =>
    obtain ⟨_, hrest⟩ := Take.of_map h
    exact Nat.le_succ_of_le (ih hrest)

/-- By induction on the characters, each of which stands for itself. -/
theorem literalRest_length_le {s cs left : List Char} (h : literalRest s = some (cs, left)) :
    left.length ≤ s.length := by
  fun_induction literalRest s generalizing cs with
  | case1 | case4 => simp at h
  | case2 rest =>
    obtain ⟨-, rfl⟩ := Prod.mk.inj (Option.some.inj h)
    exact Nat.le_succ _
  | case3 c rest _ _ ih =>
    obtain ⟨_, hrest⟩ := Take.of_map h
    exact Nat.le_succ_of_le (ih hrest)

/-- By induction on the characters.  The closing quotes are up to five, and a swallowed line break
    gives nothing of the string; every other case gives one character and takes at least one. -/
theorem multilineBasicRest_length_le {s cs left : List Char}
    (h : multilineBasicRest s = some (cs, left)) : left.length ≤ s.length := by
  fun_induction multilineBasicRest s generalizing cs with
  | case1 | case7 | case12 => simp at h
  | case2 | case3 | case4 =>
    obtain ⟨-, rfl⟩ := Prod.mk.inj (Option.some.inj h)
    simp only [List.length_cons]
    omega
  | case5 rest _ _ _ ih =>
    obtain ⟨_, hrest⟩ := Take.of_map h
    exact Nat.le_succ_of_le (ih hrest)
  | case6 rest rest' hc ih =>
    have := continuation?_length_le hc
    have := ih h
    simp only [List.length_cons]
    omega
  | case8 rest hc c rest' he ih =>
    obtain ⟨_, hrest⟩ := Take.of_map h
    have := escape_length_le he
    have := ih hrest
    simp only [List.length_cons]
    omega
  | case9 rest ih =>
    obtain ⟨_, hrest⟩ := Take.of_map h
    exact Nat.le_succ_of_le (ih hrest)
  | case10 rest ih =>
    obtain ⟨_, hrest⟩ := Take.of_map h
    exact Nat.le_add_right_of_le (k := 2) (ih hrest)
  | case11 =>
    rename_i ih
    obtain ⟨_, hrest⟩ := Take.of_map h
    exact Nat.le_succ_of_le (ih hrest)

/-- By induction on the characters, with up to five closing quotes and newlines of two
    characters. -/
theorem multilineLiteralRest_length_le {s cs left : List Char}
    (h : multilineLiteralRest s = some (cs, left)) : left.length ≤ s.length := by
  fun_induction multilineLiteralRest s generalizing cs with
  | case1 | case9 => simp at h
  | case2 | case3 | case4 =>
    obtain ⟨-, rfl⟩ := Prod.mk.inj (Option.some.inj h)
    simp only [List.length_cons]
    omega
  | case7 rest ih =>
    obtain ⟨_, hrest⟩ := Take.of_map h
    exact Nat.le_add_right_of_le (k := 2) (ih hrest)
  | case5 | case6 | case8 =>
    rename_i ih
    obtain ⟨_, hrest⟩ := Take.of_map h
    exact Nat.le_succ_of_le (ih hrest)

/-- A newline right behind the opening quotes does not count. -/
def skipFirstNewline (s : List Char) : List Char := (afterNewline? s).getD s

theorem skipFirstNewline_length_le (s : List Char) : (skipFirstNewline s).length ≤ s.length := by
  unfold skipFirstNewline
  cases h : afterNewline? s with
  | none => exact Nat.le_refl _
  | some rest => exact Nat.le_of_lt (afterNewline?_length_lt h)

/-- A string of one line. -/
def lineString : Take String
  | '"' :: rest => (basicRest rest).map fun (cs, left) => (String.ofList cs, left)
  | '\'' :: rest => (literalRest rest).map fun (cs, left) => (String.ofList cs, left)
  | _ => none

theorem lineString_steady : Steady lineString := by
  intro s text rest h
  unfold lineString at h
  split at h
  · obtain ⟨_, hrest⟩ := Take.of_map h
    exact Nat.le_succ_of_le (basicRest_length_le hrest)
  · obtain ⟨_, hrest⟩ := Take.of_map h
    exact Nat.le_succ_of_le (literalRest_length_le hrest)
  · simp at h

/-- A string in any spelling. -/
def anyString : Take String
  | '"' :: '"' :: '"' :: rest =>
    (multilineBasicRest (skipFirstNewline rest)).map fun (cs, left) => (String.ofList cs, left)
  | '\'' :: '\'' :: '\'' :: rest =>
    (multilineLiteralRest (skipFirstNewline rest)).map fun (cs, left) => (String.ofList cs, left)
  | s => lineString s

/-- Three quotes are tried before one, and what was read behind them puts nothing back. -/
theorem anyString_steady : Steady anyString := by
  intro s text rest h
  unfold anyString at h
  split at h
  · rename_i opened
    obtain ⟨_, hrest⟩ := Take.of_map h
    have := multilineBasicRest_length_le hrest
    have := skipFirstNewline_length_le opened
    simp only [List.length_cons]
    omega
  · rename_i opened
    obtain ⟨_, hrest⟩ := Take.of_map h
    have := multilineLiteralRest_length_le hrest
    have := skipFirstNewline_length_le opened
    simp only [List.length_cons]
    omega
  · exact lineString_steady _ _ _ h

end RecordFeed.Toml
