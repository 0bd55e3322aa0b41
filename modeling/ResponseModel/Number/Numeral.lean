import ResponseModel.Number.Binary64

/-!
# Decimal numerals

The text of an integer or decimal numeral, and the numbers it stands for.
-/

namespace ResponseModel

/-- A decimal numeral: `± digits · 10 ^ exponent`. -/
structure Numeral where
  negative : Bool
  digits : Nat
  exponent : Int
  deriving DecidableEq

namespace Numeral

/-! ## Reading -/

/-- The digits at the front of a text, and what follows them. -/
def spanDigits : List Char → List Char × List Char
  | [] => ([], [])
  | c :: rest =>
      if c.isDigit then
        let (digits, tail) := spanDigits rest
        (c :: digits, tail)
      else ([], c :: rest)

/-- The number that a list of digits spells. -/
def ofDigits (digits : List Char) : Nat :=
  digits.foldl (fun n c => 10 * n + (c.toNat - '0'.toNat)) 0

/-- A sign at the front of a text: whether it is a minus, and what follows. -/
def spanSign : List Char → Bool × List Char
  | '-' :: rest => (true, rest)
  | '+' :: rest => (false, rest)
  | rest => (false, rest)

/-- The exponent part of a numeral, which may be missing. -/
def exponentPart? : List Char → Option Int
  | [] => some 0
  | c :: rest =>
      if c = 'e' ∨ c = 'E' then
        let (negative, tail) := spanSign rest
        match spanDigits tail with
        | ([], _) => none
        | (digits, []) => some (if negative then -(ofDigits digits : Int) else ofDigits digits)
        | _ => none
      else none

/-- The digits after the point, which may be missing, and what follows them. -/
def fractionPart : List Char → List Char × List Char
  | '.' :: rest => spanDigits rest
  | rest => ([], rest)

/-- Reads a numeral: sign, digits, fraction, exponent. -/
def ofText? (text : String) : Option Numeral :=
  let (negative, unsigned) := spanSign text.toList
  let (whole, afterWhole) := spanDigits unsigned
  let (fraction, afterFraction) := fractionPart afterWhole
  if whole.isEmpty && fraction.isEmpty then none
  else
    (exponentPart? afterFraction).map fun exponent =>
      ⟨negative, ofDigits (whole ++ fraction), exponent - fraction.length⟩

/-! ## The numbers it stands for -/

/-- The nearest double, if it is finite.  Numerals far outside the range of doubles are decided
by their number of digits alone. -/
def toBinary64? (numeral : Numeral) : Option Binary64 :=
  let size : Int := (Nat.toDigits 10 numeral.digits).length + numeral.exponent
  if numeral.digits = 0 ∨ size < -400 then Binary64.ofRatio? numeral.negative 0 1
  else if 400 < size then none
  else
    Binary64.ofRatio? numeral.negative
      (numeral.digits * pow10 numeral.exponent.toNat) (pow10 (-numeral.exponent).toNat)

end Numeral

/-- The nearest double to a numeral, if the text is one and the double is finite. -/
def Binary64.ofText? (text : String) : Option Binary64 :=
  (Numeral.ofText? text).bind Numeral.toBinary64?

/-- The integer that a text of digits with an optional sign spells, if it fits in 32 bits. -/
def int32OfText? (text : String) : Option Int :=
  let (negative, unsigned) := Numeral.spanSign text.toList
  match Numeral.spanDigits unsigned with
  | ([], _) => none
  | (digits, []) =>
      let value : Int :=
        if negative then -(Numeral.ofDigits digits : Int) else Numeral.ofDigits digits
      if -2147483648 ≤ value ∧ value ≤ 2147483647 then some value else none
  | _ => none

end ResponseModel
