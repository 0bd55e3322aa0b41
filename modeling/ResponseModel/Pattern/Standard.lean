import ResponseModel.Pattern.Engine
import ResponseModel.Text.CaseFold
import ResponseModel.Text.WhiteSpace
import ResponseModel.Text.WordChar

/-!
# The standard engine

An engine with the tables of the character database, as far as they are needed for letters, digits
and case.  Of the classes with a name it knows the general categories, alone or together, and those
that are given by a table of their own; it knows no scripts, ages or other properties.  It builds
patterns of any size.
-/

namespace ResponseModel

namespace ClassQuery

open Text (Category)

/-- The general categories by their names, and the groups of categories that have a name. -/
def categoryNames : List (List String × List Category) :=
  [(["lu", "uppercaseletter"], [.upperLetter]),
   (["ll", "lowercaseletter"], [.lowerLetter]),
   (["lt", "titlecaseletter"], [.titleLetter]),
   (["lc", "casedletter"], [.upperLetter, .lowerLetter, .titleLetter]),
   (["lm", "modifierletter"], [.modifierLetter]),
   (["lo", "otherletter"], [.otherLetter]),
   (["l", "letter"], [.upperLetter, .lowerLetter, .titleLetter, .modifierLetter, .otherLetter]),
   (["mn", "nonspacingmark"], [.nonspacingMark]),
   (["mc", "spacingmark"], [.spacingMark]),
   (["me", "enclosingmark"], [.enclosingMark]),
   (["m", "mark", "combiningmark"], [.nonspacingMark, .spacingMark, .enclosingMark]),
   (["nd", "decimalnumber", "digit"], [.decimalNumber]),
   (["nl", "letternumber"], [.letterNumber]),
   (["no", "othernumber"], [.otherNumber]),
   (["n", "number"], [.decimalNumber, .letterNumber, .otherNumber]),
   (["pc", "connectorpunctuation"], [.connector]),
   (["pd", "dashpunctuation"], [.dash]),
   (["ps", "openpunctuation"], [.opening]),
   (["pe", "closepunctuation"], [.closing]),
   (["pi", "initialpunctuation"], [.initialQuote]),
   (["pf", "finalpunctuation"], [.finalQuote]),
   (["po", "otherpunctuation"], [.otherPunctuation]),
   (["p", "punct", "punctuation"],
     [.connector, .dash, .opening, .closing, .initialQuote, .finalQuote, .otherPunctuation]),
   (["sm", "mathsymbol"], [.mathSymbol]),
   (["sc", "currencysymbol"], [.currency]),
   (["sk", "modifiersymbol"], [.modifierSymbol]),
   (["so", "othersymbol"], [.otherSymbol]),
   (["s", "symbol"], [.mathSymbol, .currency, .modifierSymbol, .otherSymbol]),
   (["zs", "spaceseparator"], [.spaceSeparator]),
   (["zl", "lineseparator"], [.lineSeparator]),
   (["zp", "paragraphseparator"], [.paragraphSeparator]),
   (["z", "separator"], [.spaceSeparator, .lineSeparator, .paragraphSeparator]),
   (["cc", "control", "cntrl"], [.control]),
   (["cf", "format"], [.format]),
   (["co", "privateuse"], [.privateUse]),
   (["cn", "unassigned"], [.unassigned]),
   (["c", "other"], [.control, .format, .privateUse, .unassigned])]

/-- The characters of the categories with a name. -/
def category? (name : String) : Option (Char → Bool) :=
  match name with
  | "any" => some fun _ => true
  | "assigned" => some fun c => Text.categoryOf c.toNat != .unassigned
  | "ascii" => some fun c => decide (c.toNat < 0x80)
  | name =>
      (categoryNames.find? fun entry => name ∈ entry.1).map fun entry =>
        fun c => Text.categoryOf c.toNat ∈ entry.2

/-- A name without what does not count: case, blanks, underscores, hyphens, and `is` in front. -/
def plainName (name : String) : String :=
  let (marked, text) := match name.toList with
    | first :: second :: rest =>
        if first.toLower = 'i' ∧ second.toLower = 's' then (true, rest)
        else (false, first :: second :: rest)
    | text => (false, text)
  let kept := (text.filter fun c => decide (c.toNat < 0x80) && c ∉ [' ', '_', '-']).map Char.toLower
  -- this one is the name of another property, whose abbreviation starts with the two letters
  if marked && kept == ['c'] then "isc" else String.ofList kept

/-- The characters of a class. -/
def members? : ClassQuery → Option (Char → Bool)
  | .named name =>
      match plainName name with
      | "alphabetic" | "alpha" => some Text.isAlphabetic
      | "whitespace" | "wspace" | "space" => some Text.isSpaceChar
      | name => category? name
  | .valued property equal value =>
      match plainName property with
      | "generalcategory" | "gc" =>
          (category? (plainName value)).map fun test c => test c == equal
      | _ => none

end ClassQuery

/-- The engine with the tables of the character database.  Of the classes with a name it has the
general categories, the letters and the white space, and it sets no limit. -/
def Engine.standard : Engine where
  isWord := Text.isWordChar
  isDigit := Text.isDigitChar
  isAlphabetic := Text.isAlphabetic
  isNumeric := Text.isNumeric
  caseVariants := Text.caseVariants
  class? := ClassQuery.members?
  fits _ := true

end ResponseModel
