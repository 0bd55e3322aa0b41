/-!
# The engine of patterns

What the notation of patterns leaves open: the characters that count as letters, digits and parts of
words in all scripts, which of them differ in case only, the classes that have a name, and how large
a pattern may become.
-/

namespace ResponseModel

/-- A class of characters as a pattern asks for it. -/
inductive ClassQuery where
  | named (name : String)
  /-- The characters with the given value of a property, or those with another one. -/
  | valued (property : String) (equal : Bool) (value : String)
  deriving DecidableEq, Inhabited

/-- The tables and limits of an engine. -/
structure Engine where
  isWord : Char → Bool
  isDigit : Char → Bool
  isAlphabetic : Char → Bool
  isNumeric : Char → Bool
  /-- The characters that differ from the given one in case only. -/
  caseVariants : Char → List Char
  /-- The members of a class, if there is such a class. -/
  class? : ClassQuery → Option (Char → Bool)
  /-- Whether the pattern with the given text can be built. -/
  fits : String → Bool

namespace ClassQuery

/-- The text before and after the first `!=`. -/
def splitUnequal? : List Char → Option (List Char × List Char)
  | [] => none
  | '!' :: '=' :: rest => some ([], rest)
  | c :: rest => (splitUnequal? rest).map fun (before, after) => (c :: before, after)

/-- The text before and after the first occurrence of a character. -/
def splitAt? (mark : Char) (text : List Char) : Option (List Char × List Char) :=
  match text.span (· != mark) with
  | (before, _ :: after) => some (before, after)
  | (_, []) => none

/-- The class that a text between braces asks for. -/
def ofText (text : List Char) : ClassQuery :=
  match splitUnequal? text with
  | some (property, value) => .valued (String.ofList property) false (String.ofList value)
  | none =>
      match (splitAt? ':' text).or (splitAt? '=' text) with
      | some (property, value) => .valued (String.ofList property) true (String.ofList value)
      | none => .named (String.ofList text)

end ClassQuery

end ResponseModel
