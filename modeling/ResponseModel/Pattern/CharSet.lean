import ResponseModel.Pattern.Engine
import ResponseModel.Text.WhiteSpace

/-!
# Sets of characters

The sets of characters that a pattern can ask for, as terms that can be combined and tested.
-/

namespace ResponseModel

/-- A set of characters. -/
inductive CharSet where
  | none
  /-- The characters from the first to the second. -/
  | range (low high : Char)
  | digit
  | word
  | space
  /-- The members of a class of the engine. -/
  | named (query : ClassQuery)
  | union (left right : CharSet)
  | inter (left right : CharSet)
  | compl (set : CharSet)
  /-- All characters equal to a member up to case. -/
  | folded (set : CharSet)
  /-- All characters equal to a member up to the case of ASCII letters. -/
  | asciiFolded (set : CharSet)
  deriving DecidableEq, Inhabited

namespace CharSet

/-- Whether a character is in the set. -/
def holds (engine : Engine) : CharSet → Char → Bool
  | .none, _ => false
  | .range low high, c => decide (low ≤ c ∧ c ≤ high)
  | .digit, c => engine.isDigit c
  | .word, c => engine.isWord c
  | .space, c => Text.isSpaceChar c
  | .named query, c => (engine.class? query).any (· c)
  | .union left right, c => left.holds engine c || right.holds engine c
  | .inter left right, c => left.holds engine c && right.holds engine c
  | .compl set, c => !set.holds engine c
  | .folded set, c => set.holds engine c || (engine.caseVariants c).any (set.holds engine)
  | .asciiFolded set, c => set.holds engine c.toLower || set.holds engine c.toUpper

/-- The set with one member. -/
def single (c : Char) : CharSet := .range c c

/-- The set of all characters. -/
def any : CharSet := .compl .none

/-- The members of the first set that are not in the second. -/
def diff (left right : CharSet) : CharSet := .inter left (.compl right)

/-- The members of exactly one of the two sets. -/
def symmDiff (left right : CharSet) : CharSet := .union (left.diff right) (right.diff left)

/-- The set of the characters of a list of ranges. -/
def ofRanges : List (Char × Char) → CharSet
  | [] => .none
  | (low, high) :: rest => .union (.range low high) (ofRanges rest)

/-- The sets of ASCII characters that have a name inside brackets. -/
def ofClassName? (name : String) : Option CharSet :=
  match name with
  | "alnum" => some (ofRanges [('0', '9'), ('A', 'Z'), ('a', 'z')])
  | "alpha" => some (ofRanges [('A', 'Z'), ('a', 'z')])
  | "ascii" => some (.range '\x00' '\x7f')
  | "blank" => some (ofRanges [('\t', '\t'), (' ', ' ')])
  | "cntrl" => some (ofRanges [('\x00', '\x1f'), ('\x7f', '\x7f')])
  | "digit" => some (.range '0' '9')
  | "graph" => some (.range '!' '~')
  | "lower" => some (.range 'a' 'z')
  | "print" => some (.range ' ' '~')
  | "punct" => some (ofRanges [('!', '/'), (':', '@'), ('[', '\x60'), ('\x7b', '~')])
  | "space" => some (ofRanges [('\t', '\r'), (' ', ' ')])
  | "upper" => some (.range 'A' 'Z')
  | "word" => some (ofRanges [('0', '9'), ('A', 'Z'), ('_', '_'), ('a', 'z')])
  | "xdigit" => some (ofRanges [('0', '9'), ('A', 'F'), ('a', 'f')])
  | _ => Option.none

end CharSet

end ResponseModel
