import ResponseModel.Number.Binary64

/-!
# The shortest decimal text of a double

Of all decimals that read back as a given double, the text shows the one on the coarsest decimal
grid, and of several on that grid the nearest.
-/

namespace ResponseModel

namespace Shortest

/-- The numbers that round to a double, as fractions over one denominator: the double itself, the
two ends of the interval, and whether the ends belong to it. -/
structure Interval where
  value : Nat
  low : Nat
  high : Nat
  den : Nat
  closed : Bool

/-- The interval of the double `m · 2 ^ q`.  Its ends lie halfway to the neighbouring doubles; the
lower neighbour is closer when `m` is the least significand of its exponent.  The ends round to
the double exactly when `m` is even. -/
def interval (m : Nat) (q : Int) : Interval :=
  let scale := pow2 q.toNat
  let below := if m = pow2 52 ∧ -1074 < q then 1 else 2
  { value := 4 * m * scale
    low := (4 * m - below) * scale
    high := (4 * m + 2) * scale
    den := 4 * pow2 (-q).toNat
    closed := m % 2 == 0 }

/-- The same interval in units of `10 ^ k`. -/
def Interval.inUnits (i : Interval) (k : Int) : Interval :=
  let up := pow10 (-k).toNat
  { i with
    value := i.value * up
    low := i.low * up
    high := i.high * up
    den := i.den * pow10 k.toNat }

/-- Whether an integer lies in an interval. -/
def Interval.holds (i : Interval) (n : Nat) : Bool :=
  let x := n * i.den
  if i.closed then decide (i.low ≤ x ∧ x ≤ i.high) else decide (i.low < x ∧ x < i.high)

/-- The integer of an interval that is nearest to its value, the larger of two equally near. -/
def Interval.nearest? (i : Interval) : Option Nat :=
  let down := i.value / i.den
  match i.holds down && decide (0 < down), i.holds (down + 1) with
  | true, true => some (if 2 * (i.value % i.den) < i.den then down else down + 1)
  | true, false => some down
  | false, true => some (down + 1)
  | false, false => none

/-- Searches the grids `10 ^ k`, `10 ^ (k - 1)`, … for the first with a point in the interval. -/
def search (i : Interval) : Nat → Int → Nat × Int
  | 0, k => (0, k)
  | fuel + 1, k =>
      match (i.inUnits k).nearest? with
      | some digits => (digits, k)
      | none => search i fuel (k - 1)

/-- The digits and the exponent `k` of the shortest decimal `digits · 10 ^ k` of a finite non-zero
double.  The search starts above the number and ends at a grid finer than any interval. -/
def decimal (x : Binary64) : Nat × Int :=
  let e := (Nat.log2 x.significand : Int) + x.exponent
  search (interval x.significand x.exponent) 24 ((e + 1) * 30103 / 100000 + 2)

/-! ## The text -/

/-- How a number is spelled: the decimal exponents written positionally and the other texts. -/
structure Format where
  /-- The least exponent of the first digit that is written positionally. -/
  leastPositional : Int
  /-- The greatest exponent of the first digit that is written positionally. -/
  greatestPositional : Int
  nan : String
  infinity : String

/-- Numbers from `0.0001` up to `10 ^ 16` are written positionally. -/
def modelFormat : Format := ⟨-4, 15, "NaN", "inf"⟩

/-- Positional notation of `digits · 10 ^ k`, with at least one digit after the point. -/
def positional (digits : List Char) (k : Int) : List Char :=
  if 0 ≤ k then digits ++ List.replicate k.toNat '0' ++ ['.', '0']
  else
    let places := (-k).toNat
    let padded := List.replicate (places + 1 - digits.length) '0' ++ digits
    padded.take (padded.length - places) ++ '.' :: padded.drop (padded.length - places)

/-- Scientific notation, with `first` the exponent of the first digit. -/
def scientific (digits : List Char) (first : Int) : List Char :=
  let fraction := match digits.drop 1 with
    | [] => []
    | rest => '.' :: rest
  digits.take 1 ++ fraction ++ 'e' :: (toString first).toList

/-- The text of the magnitude of a finite number. -/
def magnitudeText (format : Format) (x : Binary64) : List Char :=
  if x.isZero then ['0', '.', '0']
  else
    let (number, k) := decimal x
    let digits := Nat.toDigits 10 number
    let first := k + digits.length - 1
    if format.leastPositional ≤ first ∧ first ≤ format.greatestPositional then
      positional digits k
    else scientific digits first

end Shortest

/-- The shortest text that reads back as the number. -/
def Binary64.text (x : Binary64) : String :=
  let format := Shortest.modelFormat
  if x.isNaN then format.nan
  else
    let sign := if x.negative then "-" else ""
    if x.isInfinite then sign ++ format.infinity
    else sign ++ String.ofList (Shortest.magnitudeText format x)

end ResponseModel
