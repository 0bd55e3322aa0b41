/-!
# String literals

The two forms of a GraphQL string literal: the quoted form on one line, and the block form, which
keeps the lines of the string on lines of their own.
-/

namespace ResponseModel

namespace Text

/-! ## The quoted form -/

/-- Four upper-case hexadecimal digits. -/
def hex4 (n : Nat) : List Char :=
  let digits := (Nat.toDigits 16 n).map Char.toUpper
  List.replicate (4 - digits.length) '0' ++ digits

/-- A character inside a string literal.  A tab is kept as it is. -/
def literalChar (c : Char) : List Char :=
  if c = '\x08' then ['\\', 'b']
  else if c = '\n' then ['\\', 'n']
  else if c = '\x0c' then ['\\', 'f']
  else if c = '\r' then ['\\', 'r']
  else if c = '"' then ['\\', '"']
  else if c = '\\' then ['\\', '\\']
  else if c.toNat < 0x20 ∧ c ≠ '\t' then ['\\', 'u'] ++ hex4 c.toNat
  else [c]

/-- A string literal on one line. -/
def stringLiteral (s : String) : String :=
  String.ofList ('"' :: s.toList.flatMap literalChar ++ ['"'])

/-! ## The block form -/

/-- The lines of a text. -/
def lines : List Char → List (List Char)
  | [] => [[]]
  | c :: rest =>
      match lines rest with
      | [] => [[c]]
      | first :: others => if c = '\n' then [] :: first :: others else (c :: first) :: others

/-- A space or a tab. -/
def isBlankChar (c : Char) : Bool := c == ' ' || c == '\t'

/-- Whether a line holds nothing but spaces and tabs. -/
def isBlankLine (line : List Char) : Bool := line.all isBlankChar

/-- Whether a line starts with a space or a tab. -/
def isIndented : List Char → Bool
  | [] => false
  | c :: _ => isBlankChar c

/-- Whether reading the block form gives the string back: no carriage return, no blank line at
either end, and no indentation shared by all lines that are not blank. -/
def canBeBlock (s : List Char) : Bool :=
  let ls := lines s
  !s.contains '\r'
    && (ls.head?.map isBlankLine) == some false
    && (ls.getLast?.map isBlankLine) == some false
    && (ls.filter fun line => !isBlankLine line).any fun line => !isIndented line

/-- Escapes every run of three quotes. -/
def escapeTriple : List Char → List Char
  | '"' :: '"' :: '"' :: rest => '\\' :: '"' :: '"' :: '"' :: escapeTriple rest
  | c :: rest => c :: escapeTriple rest
  | [] => []

/-- A line of the block form with the line break before it; an empty line is not indented. -/
def blockLine (indent : List Char) (line : List Char) : List Char :=
  if line.isEmpty then ['\n'] else '\n' :: indent ++ escapeTriple line

/-- A string literal over several lines, at the given indentation. -/
def blockLiteral (indent : List Char) (s : List Char) : List Char :=
  ['"', '"', '"'] ++ (lines s).flatMap (blockLine indent) ++ '\n' :: indent ++ ['"', '"', '"']

/-- A string literal that takes the block form if the string has several lines and can. -/
def displayLiteral (indent : List Char) (s : String) : String :=
  if s.toList.contains '\n' && canBeBlock s.toList then
    String.ofList (blockLiteral indent s.toList)
  else stringLiteral s

end Text

end ResponseModel
