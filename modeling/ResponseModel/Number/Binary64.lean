/-!
# Double-precision numbers

A double is held as its 64 bits: a sign, eleven bits of exponent and fifty-two bits of fraction.
All arithmetic on it is exact arithmetic on natural numbers.
-/

namespace ResponseModel

/-- The power of two with the given exponent. -/
def pow2 (exponent : Nat) : Nat := Nat.pow 2 exponent

/-- The power of ten with the given exponent. -/
def pow10 (exponent : Nat) : Nat := Nat.pow 10 exponent

/-- A double-precision number, given by its bits. -/
structure Binary64 where
  bits : UInt64
  deriving DecidableEq, Inhabited

namespace Binary64

/-! ## The parts of a number -/

/-- Whether the sign bit is set. -/
def negative (x : Binary64) : Bool := decide (pow2 63 ≤ x.bits.toNat)

/-- The bits without the sign. -/
def magnitude (x : Binary64) : Nat := x.bits.toNat % pow2 63

/-- The biased exponent. -/
def exponentField (x : Binary64) : Nat := x.magnitude / pow2 52

/-- The fraction below the leading bit. -/
def fraction (x : Binary64) : Nat := x.magnitude % pow2 52

/-- The magnitude at and above which there are no finite numbers. -/
def infinityMagnitude : Nat := 2047 * pow2 52

/-- Whether the number is not a number. -/
def isNaN (x : Binary64) : Bool := decide (infinityMagnitude < x.magnitude)

/-- Whether the number is one of the infinities. -/
def isInfinite (x : Binary64) : Bool := x.magnitude == infinityMagnitude

/-- Whether the number is one of the zeros. -/
def isZero (x : Binary64) : Bool := x.magnitude == 0

/-- The integer `m` such that the magnitude of a finite number is `m · 2 ^ q`. -/
def significand (x : Binary64) : Nat :=
  if x.exponentField = 0 then x.fraction else pow2 52 + x.fraction

/-- The exponent `q` such that the magnitude of a finite number is `m · 2 ^ q`. -/
def exponent (x : Binary64) : Int :=
  if x.exponentField = 0 then -1074 else (x.exponentField : Int) - 1075

/-- Numeric equality: a number that is not a number differs from everything, and the two zeros
are equal. -/
def same (x y : Binary64) : Bool :=
  !x.isNaN && !y.isNaN && (x.bits == y.bits || (x.isZero && y.isZero))

/-! ## Rounding -/

/-- The quotient rounded to the nearest integer, a half going to the even neighbour. -/
def roundDiv (num den : Nat) : Nat :=
  let down := num / den
  let twice := 2 * (num % den)
  if twice < den then down
  else if den < twice then down + 1
  else down + down % 2

/-- The greatest `e` with `2 ^ e ≤ num / den`, for positive arguments. -/
def floorLog2 (num den : Nat) : Int :=
  let guess : Int := (Nat.log2 num : Int) - (Nat.log2 den : Int)
  if den * pow2 guess.toNat ≤ num * pow2 (-guess).toNat then guess else guess - 1

/-- The bits of the magnitude nearest to `num / den`, ties going to the even neighbour.  With `m`
units in the last place `2 ^ e` and `e` at least `-1074`, they are `(e + 1074) · 2 ^ 52 + m`; a
carry out of the significand moves to the next exponent by itself. -/
def nearestMagnitude (num den : Nat) : Nat :=
  if num = 0 then 0
  else
    let e := max (floorLog2 num den - 52) (-1074)
    (e + 1074).toNat * pow2 52 + roundDiv (num * pow2 (-e).toNat) (den * pow2 e.toNat)

/-- The double nearest to `± num / den`, if it is finite. -/
def ofRatio? (negative : Bool) (num den : Nat) : Option Binary64 :=
  let magnitude := nearestMagnitude num den
  if magnitude < infinityMagnitude then
    some ⟨UInt64.ofNat (if negative then pow2 63 + magnitude else magnitude)⟩
  else none

end Binary64

end ResponseModel
