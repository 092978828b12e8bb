/-
  Floating point numbers of 64 bits, and the one nearest to a decimal.

  A finite number is a sign and `significand · 2 ^ exponent` with a significand below `2 ^ 53` and
  an exponent of at least `-1074`.  Everything is exact arithmetic on natural numbers: a decimal is
  a quotient, its binary magnitude is read off the bit lengths, and one rounding to nearest (a half
  goes to the even neighbour) gives the significand.
-/

namespace RecordFeed.Decimal

/-- A floating point number of 64 bits. -/
inductive Binary64 where
  | nan
  | infinite (negative : Bool)
  /-- The number `± significand · 2 ^ exponent`. -/
  | finite (negative : Bool) (significand : Nat) (exponent : Int)
deriving Repr, DecidableEq

/-- Quotient rounded to the nearest natural number, a half to the even one. -/
def roundedQuotient (num den : Nat) : Nat :=
  let q := num / den
  let r := num % den
  if 2 * r < den then q
  else if den < 2 * r then q + 1
  else if q % 2 = 0 then q else q + 1

/-- `num / den` is at least `2 ^ e`. -/
def atLeastPow (num den : Nat) : Int → Bool
  | .ofNat e => den * Nat.pow 2 e ≤ num
  | .negSucc e => den ≤ num * Nat.pow 2 (e + 1)

/-- The greatest `e` with `2 ^ e ≤ num / den`.  The bit lengths leave two candidates. -/
def binaryMagnitude (num den : Nat) : Int :=
  let e : Int := (num.log2 : Int) - (den.log2 : Int)
  if atLeastPow num den e then e else e - 1

/-- `num / den` in units of `2 ^ e`, rounded. -/
def inUnits (num den : Nat) : Int → Nat
  | .ofNat e => roundedQuotient num (den * Nat.pow 2 e)
  | .negSucc e => roundedQuotient (num * Nat.pow 2 (e + 1)) den

namespace Binary64

/-- The least exponent of a finite number. -/
def minExponent : Int := -1074

/-- The greatest exponent of a finite number. -/
def maxExponent : Int := 971

/-- The number nearest to `num / den`; beyond the range it is infinite. -/
def nearest (negative : Bool) (num den : Nat) : Binary64 :=
  if num = 0 then .finite negative 0 minExponent
  else
    let e := max (binaryMagnitude num den - 52) minExponent
    let m := inUnits num den e
    -- a significand rounded up to the next power of two moves one place
    let (m, e) := if m = Nat.pow 2 53 then (Nat.pow 2 52, e + 1) else (m, e)
    if maxExponent < e then .infinite negative else .finite negative m e

/-- The number nearest to `digits · 10 ^ exponent`.  A magnitude far outside the range is settled
    without computing the power. -/
def ofDecimal (negative : Bool) (digits : Nat) (exponent : Int) : Binary64 :=
  let magnitude : Int := (Nat.toDigits 10 digits).length + exponent
  if digits = 0 ∨ magnitude < -400 then .finite negative 0 minExponent
  else if 400 < magnitude then .infinite negative
  else
    match exponent with
    | .ofNat e => nearest negative (digits * Nat.pow 10 e) 1
    | .negSucc e => nearest negative digits (Nat.pow 10 (e + 1))

example : ofDecimal false 15 (-1) = .finite false (3 * Nat.pow 2 51) (-52) := by decide +kernel
example : ofDecimal false 1 400 = .infinite false := by decide +kernel
example : ofDecimal true 5 (-324) = .finite true 1 (-1074) := by decide +kernel

end Binary64

end RecordFeed.Decimal
