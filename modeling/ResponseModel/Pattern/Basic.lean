import ResponseModel.Ordered
import ResponseModel.Pattern.CharSet

/-!
# Patterns

Regular expressions and the texts they match.  A position in a text is what stands before it and
what is left to read; matching a pattern from a position gives the positions where it can end.
-/

namespace ResponseModel

/-- A test of whether words start or end at a position. -/
inductive WordTest where
  | boundary
  | noBoundary
  | start
  | finish
  | startHalf
  | finishHalf
  deriving DecidableEq, Inhabited

/-- A test of a position that reads nothing. -/
inductive Anchor where
  | textStart
  | textEnd
  | lineStart (crlf : Bool)
  | lineEnd (crlf : Bool)
  /-- A test of words, which are those of all scripts or only those of ASCII characters. -/
  | word (unicode : Bool) (test : WordTest)
  deriving DecidableEq, Inhabited

/-- A regular expression. -/
inductive Pattern where
  | empty
  | chars (set : CharSet)
  | anchor (test : Anchor)
  | seq (first second : Pattern)
  | alt (left right : Pattern)
  /-- At least `least` and at most `most` repetitions; without `most` any number. -/
  | many (pattern : Pattern) (least : Nat) (most : Option Nat)
  deriving DecidableEq, Inhabited

/-- A position in a text: the character before it, if any, and the rest of the text. -/
structure Position where
  before : Option Char
  rest : List Char
  deriving DecidableEq, Inhabited

namespace Position

/-- The start of a text. -/
def start (text : List Char) : Position := ⟨none, text⟩

/-- All positions after a character, up to the end of the text. -/
def following : Option Char → List Char → List Position
  | before, [] => [⟨before, []⟩]
  | before, c :: rest => ⟨before, c :: rest⟩ :: following (some c) rest

/-- All positions of a text. -/
def all (text : List Char) : List Position := following none text

end Position

/-- Whether the test holds, given whether the characters before and after a position are part of a
word. -/
def WordTest.holds (before after : Bool) : WordTest → Bool
  | .boundary => before != after
  | .noBoundary => before == after
  | .start => !before && after
  | .finish => before && !after
  | .startHalf => !before
  | .finishHalf => !after

/-- Whether a character is part of a word. -/
def Engine.isWordChar (engine : Engine) (unicode : Bool) (c : Char) : Bool :=
  if unicode then engine.isWord c else c.isAlphanum || c == '_'

/-- Whether the test holds at a position. -/
def Anchor.holds (engine : Engine) (p : Position) : Anchor → Bool
  | .textStart => p.before.isNone
  | .textEnd => p.rest.isEmpty
  | .lineStart false => p.before.isNone || p.before == some '\n'
  | .lineStart true =>
      p.before.isNone || p.before == some '\n'
        || (p.before == some '\r' && p.rest.head? != some '\n')
  | .lineEnd false => p.rest.isEmpty || p.rest.head? == some '\n'
  | .lineEnd true =>
      p.rest.isEmpty || p.rest.head? == some '\r'
        || (p.rest.head? == some '\n' && p.before != some '\r')
  | .word unicode test =>
      test.holds (p.before.any (engine.isWordChar unicode))
        (p.rest.head?.any (engine.isWordChar unicode))

namespace Pattern

/-! ## Matching -/

/-- Applies a step to every position of a list. -/
def stepAll (step : Position → List Position) (ps : List Position) : List Position :=
  distinct (ps.flatMap step)

/-- Applies a step a given number of times.  Positions that no longer change are final. -/
def iterate (step : Position → List Position) : Nat → List Position → List Position
  | 0, ps => ps
  | n + 1, ps => if stepAll step ps = ps then ps else iterate step n (stepAll step ps)

/-- Applies a step at most a given number of times. -/
def grow (step : Position → List Position) : Nat → List Position → List Position
  | 0, ps => ps
  | n + 1, ps => grow step n (distinct (ps ++ stepAll step ps))

/-- The positions where a match of the pattern that starts at a position can end.  Repetitions
beyond the length of the text reach no further position. -/
def ends (engine : Engine) : Pattern → Position → List Position
  | .empty, p => [p]
  | .chars set, p =>
      match p.rest with
      | [] => []
      | c :: rest => if set.holds engine c then [⟨some c, rest⟩] else []
  | .anchor test, p => if test.holds engine p then [p] else []
  | .seq first second, p => stepAll (second.ends engine) (first.ends engine p)
  | .alt left right, p => distinct (left.ends engine p ++ right.ends engine p)
  | .many pattern least most, p =>
      let extra := match most with
        | none => p.rest.length + 1
        | some most => min (most - least) (p.rest.length + 1)
      grow (pattern.ends engine) extra (iterate (pattern.ends engine) least [p])

/-- Whether the pattern matches somewhere in a text. -/
def occursIn (engine : Engine) (pattern : Pattern) (text : String) : Bool :=
  (Position.all text.toList).any fun p => !(pattern.ends engine p).isEmpty

/-! ## Building -/

/-- One pattern after the other. -/
def concat : List Pattern → Pattern
  | [] => .empty
  | [pattern] => pattern
  | pattern :: rest => .seq pattern (concat rest)

/-- Any one of the patterns; the list is not empty in use. -/
def choice : List Pattern → Pattern
  | [] => .empty
  | [pattern] => pattern
  | pattern :: rest => .alt pattern (choice rest)

end Pattern

end ResponseModel
