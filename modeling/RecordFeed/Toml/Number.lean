/-
  Numbers of a TOML document.

  Digits may be grouped by single underscores, each between two digits.  A decimal number has no
  leading zero and may have a sign; the other bases have neither.  Integers fit into 64 bits with
  sign.  A float has a fraction, an exponent or both; the names `inf` and `nan` are floats too.

  However many digits there are, the numbers computed stay small: an integer is given up as soon as
  it is too large, and of a float only so many digits are taken as can decide between neighbours.
-/
import RecordFeed.Toml.Lexeme
import RecordFeed.Toml.Value

namespace RecordFeed.Toml

open RecordFeed.Decimal (Binary64)

/-- A sign, if there is one; the answer says whether the number is negative. -/
def signed : List Char → Bool × List Char
  | '+' :: rest => (false, rest)
  | '-' :: rest => (true, rest)
  | s => (false, s)

/-- The digits that go on a number, each after at most one underscore. -/
def moreDigits (digit : Char → Bool) : List Char → List Char × List Char
  | '_' :: c :: rest =>
    if digit c then
      let (cs, left) := moreDigits digit rest
      (c :: cs, left)
    else ([], '_' :: c :: rest)
  | c :: rest =>
    if digit c then
      let (cs, left) := moreDigits digit rest
      (c :: cs, left)
    else ([], c :: rest)
  | [] => ([], [])

/-- At least one digit. -/
def digits (digit : Char → Bool) : Take (List Char)
  | c :: rest =>
    if digit c then
      let (cs, left) := moreDigits digit rest
      some (c :: cs, left)
    else none
  | [] => none

/-- Digits without a leading zero. -/
def wholeDigits : Take (List Char)
  | '0' :: rest => some (['0'], rest)
  | s => digits isDigit s

/-- The greatest magnitude of an integer. -/
def greatest (negative : Bool) : Nat :=
  if negative then 0x8000000000000000 else 0x7fffffffffffffff

/-- Digits of another base, behind the letter that names it. -/
def basedInteger (base : Nat) (digit : Char → Bool) : Take Int := fun s => do
  let (ds, rest) ← digits digit s
  let n ← numeralWithin? base (greatest false) ds
  return (n, rest)

/-- An integer in any base.  The letter of the base decides, so a decimal number cannot begin with a
    zero and another digit. -/
def integer : Take Int
  | '0' :: 'x' :: rest => basedInteger 16 isHexDigit rest
  | '0' :: 'o' :: rest => basedInteger 8 (fun c => '0' ≤ c && c ≤ '7') rest
  | '0' :: 'b' :: rest => basedInteger 2 (fun c => c == '0' || c == '1') rest
  | s => do
    let (negative, s) := signed s
    let (ds, rest) ← wholeDigits s
    let n ← numeralWithin? 10 (greatest negative) ds
    return (if negative then -(n : Int) else n, rest)

/-- The digits behind the point, if a point comes next. -/
def fraction? : List Char → Option (Option (List Char) × List Char)
  | '.' :: rest => (digits isDigit rest).map fun (ds, left) => (some ds, left)
  | s => some (none, s)

/-- An exponent of this magnitude takes any number of digits out of the range of a float. -/
def exponentBound : Nat := 1000000000000000000

/-- The exponent, if one comes next. -/
def exponent? : List Char → Option (Option Int × List Char)
  | c :: rest =>
    if c = 'e' ∨ c = 'E' then
      (digits isDigit (signed rest).2).map fun (ds, left) =>
        let n : Int := numeralUpTo 10 exponentBound ds
        (some (if (signed rest).1 then -n else n), left)
    else some (none, c :: rest)
  | [] => some (none, [])

/-- Where two neighbouring floats meet, no more significant digits than this can stand. -/
def decisiveDigits : Nat := 800

/-- The number that digits denote, as a number and a power of ten.  Behind the decisive digits only
    the difference between nothing and something is kept. -/
def condensed (ds : List Char) : Nat × Nat :=
  let significant := ds.dropWhile (· == '0')
  let kept := numeral 10 (significant.take decisiveDigits)
  let dropped := significant.drop decisiveDigits
  if dropped.all (· == '0') then (kept, dropped.length) else (10 * kept + 1, dropped.length - 1)

/-- A float in figures.  One too large to be finite is refused, unless it is negative. -/
def figuredFloat : Take Binary64 := fun s => do
  let (negative, s) := signed s
  let (whole, s) ← wholeDigits s
  let (fraction, s) ← fraction? s
  let (exponent, s) ← exponent? s
  guard (fraction.isSome || exponent.isSome)
  let places := fraction.getD []
  let (n, power) := condensed (whole ++ places)
  let value := Binary64.ofDecimal negative n (exponent.getD 0 + power - places.length)
  guard (value != .infinite false)
  return (value, s)

/-- A float by name. -/
def namedFloat : Take Binary64 := fun s =>
  let (negative, s) := signed s
  match word "inf".toList s, word "nan".toList s with
  | some ((), rest), _ => some (.infinite negative, rest)
  | none, some ((), rest) => some (.nan, rest)
  | none, none => none

/-- A float, in figures or by name.  Figures come first; a name is no figure. -/
def float : Take Binary64 := fun s => figuredFloat s <|> namedFloat s

example : (integer "9223372036854775807".toList).isSome = true := by decide
example : (integer "9223372036854775808".toList).isSome = false := by decide
example : condensed "00120".toList = (120, 0) := by decide

/-! ## Nothing is put back

  As with strings.  A number may fail to be one after any of its characters, but what is left
  of the text is never longer than it was. -/

/-- A sign is one character, if it is there. -/
theorem signed_length_le (s : List Char) : (signed s).2.length ≤ s.length := by
  unfold signed
  split
  · exact Nat.le_succ _
  · exact Nat.le_succ _
  · exact Nat.le_refl _

/-- By induction on the digits: each takes itself, and perhaps an underscore before it. -/
theorem moreDigits_length_le (digit : Char → Bool) (s : List Char) :
    (moreDigits digit s).2.length ≤ s.length := by
  fun_induction moreDigits digit s with
  | case1 c rest _ cs left hmore ih =>
    rw [hmore] at ih
    exact Nat.le_add_right_of_le (k := 2) ih
  | case3 c rest _ _ cs left hmore ih =>
    rw [hmore] at ih
    exact Nat.le_succ_of_le ih
  | case2 | case4 | case5 => exact Nat.le_refl _

theorem digits_steady (digit : Char → Bool) : Steady (digits digit) := by
  intro s ds rest h
  unfold digits at h
  split at h
  · rename_i c more
    split at h
    · obtain ⟨-, rfl⟩ := Prod.mk.inj (Option.some.inj h)
      exact Nat.le_succ_of_le (moreDigits_length_le digit more)
    · simp at h
  · simp at h

/-- A leading zero stands alone, so either it is taken or digits are. -/
theorem wholeDigits_steady : Steady wholeDigits := by
  intro s ds rest h
  unfold wholeDigits at h
  split at h
  · obtain ⟨-, rfl⟩ := Prod.mk.inj (Option.some.inj h)
    exact Nat.le_succ _
  · exact digits_steady _ _ _ _ h

/-- That a number is too large is found behind its digits, and changes nothing about what they
    take. -/
theorem basedInteger_steady (base : Nat) (digit : Char → Bool) :
    Steady (basedInteger base digit) := by
  intro s n rest h
  simp only [basedInteger, Option.bind_eq_bind, Option.bind_eq_some_iff] at h
  obtain ⟨⟨ds, rest'⟩, hdigits, m, -, hsame⟩ := h
  obtain ⟨-, rfl⟩ := Prod.mk.inj (Option.some.inj hsame)
  exact digits_steady _ _ _ _ hdigits

/-- Two characters name a base, and a decimal number has at most a sign before its digits. -/
theorem integer_steady : Steady integer := by
  intro s n rest h
  unfold integer at h
  split at h
  · exact Nat.le_add_right_of_le (k := 2) (basedInteger_steady _ _ _ _ _ h)
  · exact Nat.le_add_right_of_le (k := 2) (basedInteger_steady _ _ _ _ _ h)
  · exact Nat.le_add_right_of_le (k := 2) (basedInteger_steady _ _ _ _ _ h)
  · simp only [Option.bind_eq_bind, Option.bind_eq_some_iff] at h
    obtain ⟨⟨ds, rest'⟩, hdigits, m, -, hsame⟩ := h
    obtain ⟨-, rfl⟩ := Prod.mk.inj (Option.some.inj hsame)
    exact Nat.le_trans (wholeDigits_steady _ _ _ hdigits) (signed_length_le _)

/-- A fraction is a point and digits, or nothing. -/
theorem fraction?_steady : Steady fraction? := by
  intro s ds rest h
  unfold fraction? at h
  split at h
  · obtain ⟨_, hdigits⟩ := Take.of_map h
    exact Nat.le_succ_of_le (digits_steady _ _ _ _ hdigits)
  · obtain ⟨-, rfl⟩ := Prod.mk.inj (Option.some.inj h)
    exact Nat.le_refl _

/-- An exponent is a letter, perhaps a sign, and digits, or nothing. -/
theorem exponent?_steady : Steady exponent? := by
  intro s n rest h
  unfold exponent? at h
  split at h
  · rename_i c more
    split at h
    · obtain ⟨⟨ds, rest'⟩, hdigits, hsame⟩ := Option.map_eq_some_iff.mp h
      obtain ⟨-, rfl⟩ := Prod.mk.inj hsame
      exact Nat.le_succ_of_le (Nat.le_trans (digits_steady _ _ _ _ hdigits) (signed_length_le more))
    · obtain ⟨-, rfl⟩ := Prod.mk.inj (Option.some.inj h)
      exact Nat.le_refl _
  · obtain ⟨-, rfl⟩ := Prod.mk.inj (Option.some.inj h)
    exact Nat.le_refl _

/-- The parts of a float are read one behind the other, each from what the one before has left. -/
theorem figuredFloat_steady : Steady figuredFloat := by
  intro s x rest h
  unfold figuredFloat at h
  obtain ⟨⟨whole, s₁⟩, h₁, h⟩ := Option.bind_eq_some_iff.mp h
  obtain ⟨⟨fraction, s₂⟩, h₂, h⟩ := Option.bind_eq_some_iff.mp h
  obtain ⟨⟨exponent, s₃⟩, h₃, h⟩ := Option.bind_eq_some_iff.mp h
  obtain ⟨-, -, h⟩ := Option.bind_eq_some_iff.mp h
  obtain ⟨-, -, hsame⟩ := Option.bind_eq_some_iff.mp h
  obtain ⟨-, rfl⟩ := Prod.mk.inj (Option.some.inj hsame)
  have := signed_length_le s
  have := wholeDigits_steady (signed s).2 _ _ h₁
  have := fraction?_steady _ _ _ h₂
  have := exponent?_steady _ _ _ h₃
  omega

/-- A named float is a word, perhaps behind a sign. -/
theorem namedFloat_steady : Steady namedFloat := by
  intro s x rest h
  have hsigned := signed_length_le s
  unfold namedFloat at h
  simp only at h
  split at h
  · rename_i hword
    obtain ⟨-, rfl⟩ := Prod.mk.inj (Option.some.inj h)
    exact Nat.le_trans (word_steady _ _ _ _ hword) hsigned
  · rename_i hword
    obtain ⟨-, rfl⟩ := Prod.mk.inj (Option.some.inj h)
    exact Nat.le_trans (word_steady _ _ _ _ hword) hsigned
  · simp at h

/-- Whichever of the two was read has put nothing back. -/
theorem float_steady : Steady float := by
  intro s x rest h
  cases hfigured : figuredFloat s with
  | some taken =>
    obtain rfl : taken = (x, rest) := by simpa [float, hfigured] using h
    exact figuredFloat_steady _ _ _ hfigured
  | none => exact namedFloat_steady _ _ _ (by simpa [float, hfigured] using h)

end RecordFeed.Toml
