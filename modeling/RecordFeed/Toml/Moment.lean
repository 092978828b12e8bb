/-
  Dates and times of a TOML document.

  A moment is a date, a time of day, or a date and a time joined by a letter T or one space; the
  latter may end in an offset.  Days are those of the calendar, leap years included, and seconds
  go to 60.  What a reader of settings needs is only that a moment stands there, so nothing of it
  is kept.
-/
import RecordFeed.Toml.Lexeme

namespace RecordFeed.Toml

/-- Exactly so many digits, for a number between two bounds. -/
def fixedNumber (width low high : Nat) : Take Nat := fun s =>
  let shown := s.take width
  let n := numeral 10 shown
  if shown.length = width ∧ shown.all isDigit ∧ low ≤ n ∧ n ≤ high then some (n, s.drop width)
  else none

/-- A year in four, but of the full centuries only one in four. -/
def isLeapYear (year : Nat) : Bool :=
  year % 4 == 0 && (year % 100 != 0 || year % 400 == 0)

/-- How many days the month has in that year. -/
def daysInMonth (year month : Nat) : Nat :=
  if month = 2 then (if isLeapYear year then 29 else 28)
  else if month = 4 ∨ month = 6 ∨ month = 9 ∨ month = 11 then 30
  else 31

/-- A date, year first. -/
def date : Take Unit := fun s => do
  let (year, s) ← fixedNumber 4 0 9999 s
  let ((), s) ← word ['-'] s
  let (month, s) ← fixedNumber 2 1 12 s
  let ((), s) ← word ['-'] s
  let (_, s) ← fixedNumber 2 1 (daysInMonth year month) s
  return ((), s)

/-- A fraction of a second: nothing, or a point and digits. -/
def secondFraction (s : List Char) : List Char :=
  match s with
  | '.' :: c :: rest => if isDigit c then rest.dropWhile isDigit else s
  | _ => s

/-- Hours and minutes of a day. -/
def hourMinute : Take Unit := fun s => do
  let (_, s) ← fixedNumber 2 0 23 s
  let ((), s) ← word [':'] s
  let (_, s) ← fixedNumber 2 0 59 s
  return ((), s)

/-- A time, seconds included. -/
def timeOfDay : Take Unit := fun s => do
  let ((), s) ← hourMinute s
  let ((), s) ← word [':'] s
  let (_, s) ← fixedNumber 2 0 60 s
  return ((), secondFraction s)

/-- What follows an offset from universal time, if one comes next. -/
def skipOffset (s : List Char) : List Char :=
  match s with
  | 'Z' :: rest => rest
  | 'z' :: rest => rest
  | c :: rest =>
    if c = '+' ∨ c = '-' then
      match hourMinute rest with
      | some ((), left) => left
      | none => s
    else s
  | [] => s

/-- What follows a time joined to a date, if one comes next. -/
def skipJoinedTime (s : List Char) : List Char :=
  match s with
  | c :: rest =>
    if c = 'T' ∨ c = 't' ∨ c = ' ' then
      match timeOfDay rest with
      | some ((), left) => skipOffset left
      | none => s
    else s
  | [] => s

/-- A moment. -/
def moment : Take Unit := fun s =>
  match date s with
  | some ((), rest) => some ((), skipJoinedTime rest)
  | none => timeOfDay s

example : (moment "1979-05-27 07:32:00Z,".toList).map Prod.snd = some [','] := by decide
example : (moment "2023-02-29".toList).isNone = true := by decide

/-! ## Nothing is put back

  As with strings.  What a moment says is checked and dropped, and only the characters count
  here. -/

/-- A number of fixed width takes its digits. -/
theorem fixedNumber_steady (width low high : Nat) : Steady (fixedNumber width low high) := by
  intro s n rest h
  unfold fixedNumber at h
  simp only at h
  split at h
  · obtain ⟨-, rfl⟩ := Prod.mk.inj (Option.some.inj h)
    simp
  · simp at h

/-- The parts of a date are read one behind the other. -/
theorem date_steady : Steady date := by
  intro s a rest h
  simp only [date, Option.bind_eq_bind, Option.bind_eq_some_iff] at h
  obtain ⟨⟨_, s₁⟩, h₁, ⟨_, s₂⟩, h₂, ⟨_, s₃⟩, h₃, h⟩ := h
  obtain ⟨⟨_, s₄⟩, h₄, ⟨_, s₅⟩, h₅, hsame⟩ := h
  obtain ⟨-, rfl⟩ := Prod.mk.inj (Option.some.inj hsame)
  have := fixedNumber_steady _ _ _ _ _ _ h₁
  have := word_steady _ _ _ _ h₂
  have := fixedNumber_steady _ _ _ _ _ _ h₃
  have := word_steady _ _ _ _ h₄
  have := fixedNumber_steady _ _ _ _ _ _ h₅
  dsimp only at *
  omega

/-- A fraction is dropped or left. -/
theorem secondFraction_length_le (s : List Char) : (secondFraction s).length ≤ s.length := by
  unfold secondFraction
  split
  · split
    · exact Nat.le_add_right_of_le (k := 2) (length_dropWhile_le _ _)
    · exact Nat.le_refl _
  · exact Nat.le_refl _

/-- As with a date, the parts are read one behind the other. -/
theorem hourMinute_steady : Steady hourMinute := by
  intro s a rest h
  simp only [hourMinute, Option.bind_eq_bind, Option.bind_eq_some_iff] at h
  obtain ⟨⟨_, s₁⟩, h₁, ⟨_, s₂⟩, h₂, ⟨_, s₃⟩, h₃, hsame⟩ := h
  obtain ⟨-, rfl⟩ := Prod.mk.inj (Option.some.inj hsame)
  have := fixedNumber_steady _ _ _ _ _ _ h₁
  have := word_steady _ _ _ _ h₂
  have := fixedNumber_steady _ _ _ _ _ _ h₃
  dsimp only at *
  omega

/-- Minutes, seconds and perhaps a fraction. -/
theorem timeOfDay_steady : Steady timeOfDay := by
  intro s a rest h
  simp only [timeOfDay, Option.bind_eq_bind, Option.bind_eq_some_iff] at h
  obtain ⟨⟨_, s₁⟩, h₁, ⟨_, s₂⟩, h₂, ⟨_, s₃⟩, h₃, hsame⟩ := h
  obtain ⟨-, rfl⟩ := Prod.mk.inj (Option.some.inj hsame)
  have := hourMinute_steady _ _ _ h₁
  have := word_steady _ _ _ _ h₂
  have := fixedNumber_steady _ _ _ _ _ _ h₃
  have := secondFraction_length_le s₃
  dsimp only at *
  omega

/-- An offset that is none is left as it stands. -/
theorem skipOffset_length_le (s : List Char) : (skipOffset s).length ≤ s.length := by
  unfold skipOffset
  split
  · exact Nat.le_succ _
  · exact Nat.le_succ _
  · split
    · split
      · rename_i hleft
        exact Nat.le_succ_of_le (hourMinute_steady _ _ _ hleft)
      · exact Nat.le_refl _
    · exact Nat.le_refl _
  · exact Nat.le_refl _

/-- A time that is none is left as it stands, with the letter before it. -/
theorem skipJoinedTime_length_le (s : List Char) : (skipJoinedTime s).length ≤ s.length := by
  unfold skipJoinedTime
  split
  · split
    · split
      · rename_i left hleft
        have := timeOfDay_steady _ _ _ hleft
        have := skipOffset_length_le left
        simp only [List.length_cons]
        omega
      · exact Nat.le_refl _
    · exact Nat.le_refl _
  · exact Nat.le_refl _

/-- A date and perhaps a time, or a time alone. -/
theorem moment_steady : Steady moment := by
  intro s a rest h
  unfold moment at h
  split at h
  · rename_i rest' hdate
    obtain ⟨-, rfl⟩ := Prod.mk.inj (Option.some.inj h)
    exact Nat.le_trans (skipJoinedTime_length_le rest') (date_steady _ _ _ hdate)
  · exact timeOfDay_steady _ _ _ h

end RecordFeed.Toml
