/-
  The text of a floating point number: the fewest digits that read back.

  The reals that round to a finite number form an interval around it, ends included exactly when
  its significand is even.  For 1, 2, … 17 digits the two neighbours of the number on that decimal
  grid are tried; the first grid with a neighbour in the interval wins, and of two neighbours the
  nearer (the upper one if both are equally near).  No shorter decimal can lie in the interval: a
  grid with a point in it has one of the two neighbours in it.

  The text is positional whatever the magnitude, with at least one digit after the point.
-/
import RecordFeed.Decimal.Binary64

namespace RecordFeed.Decimal

/-- The decimal `digits · 10 ^ exponent`. -/
structure Scaled where
  digits : Nat
  exponent : Int
deriving Repr, DecidableEq

/-- The reals that round to one finite number, as quotients over one denominator. -/
structure Rounding where
  /-- the number itself, over `den` -/
  value : Nat
  /-- the lower end, over `den` -/
  low : Nat
  /-- the upper end, over `den` -/
  high : Nat
  den : Nat
  /-- the ends round to the number as well -/
  closed : Bool

namespace Rounding

/-- The interval of `significand · 2 ^ exponent`.  Below a power of two the neighbour is only half
    as far away, except at the least exponent. -/
def ofFinite (significand : Nat) (exponent : Int) : Rounding :=
  let below := if significand = Nat.pow 2 52 ∧ exponent ≠ Binary64.minExponent then 1 else 2
  -- in quarters of the last place, so that every end is whole
  let quarters := 4 * significand
  let (up, den) := match exponent - 2 with
    | .ofNat e => (Nat.pow 2 e, 1)
    | .negSucc e => (1, Nat.pow 2 (e + 1))
  { value := quarters * up
    low := (quarters - below) * up
    high := (quarters + 2) * up
    den := den
    closed := significand % 2 = 0 }

/-- The least `p` with `value < 10 ^ p`: where the point stands before the first digit. -/
def pointPosition (r : Rounding) : Int :=
  if r.den ≤ r.value then (Nat.toDigits 10 (r.value / r.den)).length
  else
    match (List.range 400).find? fun z => r.den ≤ r.value * Nat.pow 10 (z + 1) with
    | some z => -(z : Int)
    | none => -400

/-- The better of the two neighbours of the value on the grid `10 ^ e`, if one is in the
    interval. -/
def neighbour? (r : Rounding) (e : Int) : Option Scaled :=
  -- `up` and `down` bring grid steps and the interval to one unit
  let (up, down) := match e with
    | .ofNat e => (Nat.pow 10 e, 1)
    | .negSucc e => (1, Nat.pow 10 (e + 1))
  let step := r.den * up
  let value := r.value * down
  let inside (x : Nat) : Bool :=
    let point := x * step
    let low := r.low * down
    let high := r.high * down
    if r.closed then low ≤ point && point ≤ high else low < point && point < high
  let q := value / step
  let upperNearer := step ≤ 2 * (value - q * step)
  match inside q, inside (q + 1) with
  | true, true => some ⟨if upperNearer then q + 1 else q, e⟩
  | true, false => some ⟨q, e⟩
  | false, true => some ⟨q + 1, e⟩
  | false, false => none

/-- The shortest decimal of the interval. -/
def shortest (r : Rounding) : Scaled :=
  let p := r.pointPosition
  ((List.range 17).findSome? fun (n : Nat) => r.neighbour? (p - (n + 1))).getD ⟨0, 0⟩

end Rounding

/-- Digits without the zeros at their end, and how many those were. -/
def stripZeros (digits : List Char) : List Char × Nat :=
  let kept := (digits.reverse.dropWhile (· == '0')).reverse
  (kept, digits.length - kept.length)

/-- A positive decimal written out, with at least one digit on each side of the point. -/
def Scaled.positional (d : Scaled) : String :=
  let (kept, zeros) := stripZeros (Nat.toDigits 10 d.digits)
  let exponent := d.exponent + zeros
  match exponent with
  | .ofNat e => String.ofList (kept ++ List.replicate e '0') ++ ".0"
  | .negSucc e =>
    let places := e + 1
    let padded := List.replicate (places + 1 - kept.length) '0' ++ kept
    let whole := padded.length - places
    String.ofList (padded.take whole) ++ "." ++ String.ofList (padded.drop whole)

/-- The text of a floating point number. -/
def Binary64.text : Binary64 → String
  | .nan => "NaN"
  | .infinite negative => if negative then "-inf" else "inf"
  | .finite negative significand exponent =>
    (if negative then "-" else "") ++
      if significand = 0 then "0.0"
      else (Rounding.ofFinite significand exponent).shortest.positional

example : (Binary64.ofDecimal false 15 (-1)).text = "1.5" := by decide +kernel
example : (Binary64.ofDecimal true 0 0).text = "-0.0" := by decide +kernel
example : (Binary64.ofDecimal false 1 2).text = "100.0" := by decide +kernel
example : (Binary64.ofDecimal false 1 (-3)).text = "0.001" := by decide +kernel

end RecordFeed.Decimal
