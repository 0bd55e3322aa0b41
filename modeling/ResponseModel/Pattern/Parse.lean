import ResponseModel.Pattern.Basic

/-!
# Reading patterns

The notation of regular expressions: literals, `.`, classes in brackets or by name, escapes,
anchors, groups with or without a name, flags, alternatives, and greedy or lazy repetitions.  Since
a pattern is only asked whether it matches, groups leave no trace and lazy repetitions are like
greedy ones.  Look-around and references to groups are not part of the notation.  A pattern matches
texts, never parts of a character; where the flags restrict it to ASCII, what could match such a
part is refused.
-/

namespace ResponseModel

namespace Pattern

/-! ## Flags -/

/-- The flags in force at some place of a pattern. -/
structure Flags where
  ignoreCase : Bool := false
  multiLine : Bool := false
  dotAll : Bool := false
  crlf : Bool := false
  verbose : Bool := false
  unicode : Bool := true
  deriving DecidableEq, Inhabited

/-- Switches one flag on or off.  The flag that swaps greedy and lazy has no effect. -/
def Flags.set? (flags : Flags) (c : Char) (on : Bool) : Option Flags :=
  match c with
  | 'i' => some { flags with ignoreCase := on }
  | 'm' => some { flags with multiLine := on }
  | 's' => some { flags with dotAll := on }
  | 'R' => some { flags with crlf := on }
  | 'x' => some { flags with verbose := on }
  | 'u' => some { flags with unicode := on }
  | 'U' => some flags
  | _ => none

/-- Reads flags up to the `:` or `)` that ends them.  Gives the new flags, that character, whether
there were any flags, and the rest.  No flag may come twice, and a minus needs a flag after it. -/
def readFlags? (seen : List Char) (on : Bool) (flags : Flags) :
    List Char → Option (Flags × Char × Bool × List Char)
  | [] => none
  | c :: rest =>
      if c = ':' ∨ c = ')' then
        if seen.head? = some '-' then none else some (flags, c, !seen.isEmpty, rest)
      else if c ∈ seen then none
      else if c = '-' then readFlags? (c :: seen) false flags rest
      else (flags.set? c on).bind fun flags => readFlags? (c :: seen) on flags rest

/-- Drops the rest of a comment. -/
def dropComment : List Char → List Char
  | [] => []
  | c :: rest => if c = '\n' then rest else dropComment rest

/-- Drops blanks and comments, if the flags say that they do not count. -/
def skipBlanks (flags : Flags) : Nat → List Char → List Char
  | fuel + 1, c :: rest =>
      if flags.verbose && Text.isSpaceChar c then skipBlanks flags fuel rest
      else if flags.verbose && c == '#' then skipBlanks flags fuel (dropComment rest)
      else c :: rest
  | _, text => text

/-- Drops blanks and comments at the front of a text. -/
def skip (flags : Flags) (text : List Char) : List Char := skipBlanks flags text.length text

/-- Reads the characters that pass a test, with the blanks and comments after each. -/
def readWhile (flags : Flags) (test : Char → Bool) : Nat → List Char → List Char × List Char
  | fuel + 1, c :: rest =>
      if test c then
        let (taken, left) := readWhile flags test fuel (skip flags rest)
        (c :: taken, left)
      else ([], c :: rest)
  | _, text => ([], text)

/-- The characters at the front of a text that pass a test, and the rest. -/
def run (flags : Flags) (test : Char → Bool) (text : List Char) : List Char × List Char :=
  readWhile flags test text.length text

/-- Reads a number of characters, with the blanks and comments after each. -/
def readCount? (flags : Flags) : Nat → List Char → Option (List Char × List Char)
  | 0, text => some ([], text)
  | _ + 1, [] => none
  | n + 1, c :: rest =>
      (readCount? flags n (skip flags rest)).map fun (taken, left) => (c :: taken, left)

/-- The text up to a closing brace, and what follows the brace. -/
def braced? (flags : Flags) (text : List Char) : Option (List Char × List Char) :=
  match run flags (· != '\x7d') (skip flags text) with
  | (inner, _ :: after) => some (inner, after)
  | (_, []) => none

/-! ## Sets under flags -/

/-- The set under the flags: closed under case if case does not count. -/
def foldSet (flags : Flags) (set : CharSet) : CharSet :=
  if flags.ignoreCase then if flags.unicode then .folded set else .asciiFolded set else set

/-- The complement of a set, if asked for.  Among ASCII characters there is none. -/
def negate? (flags : Flags) (negated : Bool) (set : CharSet) : Option CharSet :=
  if negated then if flags.unicode then some (.compl set) else none else some set

/-- The set of a class, closed under case if needed and then negated. -/
def closeClass? (flags : Flags) (negated : Bool) (set : CharSet) : Option CharSet :=
  negate? flags negated (foldSet flags set)

/-- Whether a character can be a member of a class in brackets. -/
def Flags.admits (flags : Flags) (c : Char) : Bool := flags.unicode || decide (c.toNat < 0x80)

/-! ## Numbers and escapes -/

/-- The value of a hexadecimal digit. -/
def hexValue? (c : Char) : Option Nat :=
  if c.isDigit then some (c.toNat - '0'.toNat)
  else if 'a' ≤ c ∧ c ≤ 'f' then some (c.toNat - 'a'.toNat + 10)
  else if 'A' ≤ c ∧ c ≤ 'F' then some (c.toNat - 'A'.toNat + 10)
  else none

/-- The number that hexadecimal digits spell; there has to be at least one. -/
def hexNumber? : List Char → Option Nat
  | [] => none
  | digits =>
      digits.foldl (fun n c => n.bind fun n => (hexValue? c).map (16 * n + ·)) (some 0)

/-- The character of a code point. -/
def charOf? (n : Nat) : Option Char :=
  if n.isValidChar then some (Char.ofNat n) else none

/-- Whether the digits of a code point, not in braces, give a byte that is no character. -/
def isStrayByte (flags : Flags) (width : Nat) (c : Char) : Bool :=
  !flags.unicode && width == 2 && decide (0x80 ≤ c.toNat)

/-- The character given by a code point: a fixed number of digits, or any number in braces. -/
def codePoint? (flags : Flags) (width : Nat) (text : List Char) : Option (Char × List Char) :=
  match skip flags text with
  | '\x7b' :: rest => do
      let (digits, after) ← braced? flags rest
      let c ← (hexNumber? digits).bind charOf?
      some (c, after)
  | text => do
      let (digits, after) ← readCount? flags width text
      let c ← (hexNumber? digits).bind charOf?
      if isStrayByte flags width c then none else some (c, after)

/-- What an escape stands for. -/
inductive Escape where
  | char (c : Char)
  | set (set : CharSet)
  | anchor (test : Anchor)

/-- The characters with a meaning of their own, which an escape takes away. -/
def isMeta (c : Char) : Bool := c ∈ "\\.+*?()|[]\x7b\x7d^$#&-~".toList

/-- Whether an escape of the character stands for the character itself. -/
def isEscapable (c : Char) : Bool :=
  isMeta c || (decide (c.toNat < 0x80) && !c.isAlphanum && c != '<' && c != '>')

/-- The white space of ASCII. -/
def asciiSpace : CharSet := .ofRanges [('\t', '\r'), (' ', ' ')]

/-- The word characters of ASCII. -/
def asciiWord : CharSet := .ofRanges [('0', '9'), ('A', 'Z'), ('_', '_'), ('a', 'z')]

/-- An escape for a set, which is restricted to ASCII if the flags say so. -/
def perlClass? (flags : Flags) (set ascii : CharSet) (negated : Bool) : Option Escape :=
  (negate? flags negated (if flags.unicode then set else ascii)).map .set

/-- The name of a class: one character, or a text in braces. -/
def classQuery? (flags : Flags) (text : List Char) : Option (ClassQuery × List Char) :=
  match skip flags text with
  | [] => none
  | '\x7b' :: rest => (braced? flags rest).map fun (name, after) => (.ofText name, after)
  | '\\' :: _ => none
  | c :: rest => some (.named (String.singleton c), rest)

/-- The rest of an escape for a class of the engine. -/
def unicodeClass? (engine : Engine) (flags : Flags) (negated : Bool) (text : List Char) :
    Option (Escape × List Char) := do
  let (query, after) ← classQuery? flags text
  if flags.unicode && (engine.class? query).isSome then
    let set ← closeClass? flags negated (.named query)
    some (.set set, after)
  else none

/-- The tests that are written `\b` with a name in braces. -/
def boundaryOf? (name : String) : Option WordTest :=
  match name with
  | "start" => some .start
  | "end" => some .finish
  | "start-half" => some .startHalf
  | "end-half" => some .finishHalf
  | _ => none

/-- Whether a character can stand in the name of a boundary. -/
def isBoundaryChar (c : Char) : Bool := c.isAlpha || c == '-'

/-- The rest of an escape that starts with `\b`.  Braces that do not hold a name are left for a
repetition. -/
def boundary? (flags : Flags) : List Char → Option (Escape × List Char)
  | '\x7b' :: rest =>
      match run flags isBoundaryChar (skip flags rest) with
      | ([], []) => none
      | ([], _) => some (.anchor (.word flags.unicode .boundary), '\x7b' :: rest)
      | (name, '\x7d' :: after) =>
          (boundaryOf? (String.ofList name)).map fun test =>
            (.anchor (.word flags.unicode test), after)
      | _ => none
  | rest => some (.anchor (.word flags.unicode .boundary), rest)

/-- An escape of one letter. -/
def letterEscape? (flags : Flags) (c : Char) : Option Escape :=
  match c with
  | 'd' => perlClass? flags .digit (.range '0' '9') false
  | 'D' => perlClass? flags .digit (.range '0' '9') true
  | 's' => perlClass? flags .space asciiSpace false
  | 'S' => perlClass? flags .space asciiSpace true
  | 'w' => perlClass? flags .word asciiWord false
  | 'W' => perlClass? flags .word asciiWord true
  | 'a' => some (.char '\x07')
  | 'f' => some (.char '\x0c')
  | 't' => some (.char '\t')
  | 'n' => some (.char '\n')
  | 'r' => some (.char '\r')
  | 'v' => some (.char '\x0b')
  | 'A' => some (.anchor .textStart)
  | 'z' => some (.anchor .textEnd)
  | 'B' => some (.anchor (.word flags.unicode .noBoundary))
  | '<' => some (.anchor (.word flags.unicode .start))
  | '>' => some (.anchor (.word flags.unicode .finish))
  | _ => none

/-- Reads an escape, after its backslash. -/
def escape? (engine : Engine) (flags : Flags) : List Char → Option (Escape × List Char)
  | [] => none
  | c :: rest =>
      if isEscapable c then some (.char c, rest)
      else
        match c with
        | 'x' => (codePoint? flags 2 rest).map fun (c, after) => (.char c, after)
        | 'u' => (codePoint? flags 4 rest).map fun (c, after) => (.char c, after)
        | 'U' => (codePoint? flags 8 rest).map fun (c, after) => (.char c, after)
        | 'p' => unicodeClass? engine flags false rest
        | 'P' => unicodeClass? engine flags true rest
        | 'b' => boundary? flags rest
        | c => (letterEscape? flags c).map (·, rest)

/-! ## Classes in brackets -/

/-- How two sets inside brackets are combined. -/
inductive SetOp where
  | inter
  | diff
  | symmDiff
  deriving DecidableEq

/-- The set read so far, combined with the set before the last operator. -/
def combine (flags : Flags) (set : CharSet) : Option (SetOp × CharSet) → CharSet
  | none => set
  | some (.inter, left) => .inter (foldSet flags left) (foldSet flags set)
  | some (.diff, left) => (foldSet flags left).diff (foldSet flags set)
  | some (.symmDiff, left) => (foldSet flags left).symmDiff (foldSet flags set)

/-- A character or an escape inside brackets. -/
def classItem? (engine : Engine) (flags : Flags) : List Char → Option (Escape × List Char)
  | [] => none
  | '\\' :: rest => escape? engine flags rest
  | c :: rest => some (.char c, rest)

/-- The set that a character or an escape inside brackets stands for. -/
def Escape.charSet? (flags : Flags) : Escape → Option CharSet
  | .char c => if flags.admits c then some (.single c) else none
  | .set members => some members
  | .anchor _ => none

/-- The range between two characters. -/
def charRange? (flags : Flags) : Escape → Escape → Option CharSet
  | .char low, .char high =>
      if low ≤ high ∧ flags.admits low ∧ flags.admits high then some (.range low high) else none
  | _, _ => none

/-- The next character that is not blank and does not start a comment. -/
def peekBlanks (commented : Bool) : List Char → Option Char
  | [] => none
  | c :: rest =>
      if Text.isSpaceChar c then peekBlanks commented rest
      else if !commented && c == '#' then peekBlanks true rest
      else some c

/-- The character that is looked for after a minus.  A comment is not passed over as a whole, but
only the mark at its start. -/
def peek (flags : Flags) (text : List Char) : Option Char :=
  if flags.verbose then (peekBlanks false text).or text.head? else text.head?

/-- Whether a minus before the text stands for itself or is part of an operator. -/
def endsRange (flags : Flags) (text : List Char) : Bool :=
  peek flags text == some ']' || peek flags text == some '-'

/-- An item or a range inside brackets.  A minus before the closing bracket stands for itself. -/
def classRange? (engine : Engine) (flags : Flags) (text : List Char) :
    Option (CharSet × List Char) := do
  let (item, after) ← classItem? engine flags text
  match skip flags after with
  | [] => none
  | '-' :: rest =>
      if endsRange flags rest then (item.charSet? flags).map (·, '-' :: rest)
      else do
        let (last, after) ← classItem? engine flags (skip flags rest)
        (charRange? flags item last).map (·, after)
  | after => (item.charSet? flags).map (·, after)

/-- A class of ASCII characters by its name, such as `[:alpha:]`, after the opening bracket, and
whether it is negated. -/
def asciiClass? : List Char → Option (Bool × CharSet × List Char)
  | ':' :: rest =>
      let (negated, rest) := match rest with
        | '^' :: rest => (true, rest)
        | rest => (false, rest)
      match rest.span (· != ':') with
      | (name, ':' :: ']' :: after) =>
          (CharSet.ofClassName? (String.ofList name)).map fun set => (negated, set, after)
      | _ => none
  | _ => none

/-- The minus signs at the front of a class, which stand for themselves. -/
def leadingDashes (flags : Flags) : Nat → CharSet → List Char → CharSet × List Char
  | fuel + 1, set, '-' :: rest =>
      leadingDashes flags fuel (.union set (.single '-')) (skip flags rest)
  | _, set, text => (set, text)

/-- The start of a class: whether it is negated, and the items that stand for themselves only
there. -/
def classStart (flags : Flags) (text : List Char) : Bool × CharSet × List Char :=
  let text := skip flags text
  let (negated, text) := match text with
    | '^' :: rest => (true, skip flags rest)
    | text => (false, text)
  let (set, text) := leadingDashes flags text.length .none text
  match set, text with
  | .none, ']' :: rest => (negated, .single ']', skip flags rest)
  | set, text => (negated, set, text)

/-- The items of a class up to its closing bracket; classes inside it are read by the same
function.  The fuel bounds the number of characters read. -/
def classBody? (engine : Engine) (flags : Flags) :
    Nat → Bool → CharSet → Option (SetOp × CharSet) → List Char → Option (CharSet × List Char)
  | 0, _, _, _, _ => none
  | fuel + 1, negated, set, pending, text =>
      match skip flags text with
      | [] => none
      | ']' :: rest => (closeClass? flags negated (combine flags set pending)).map (·, rest)
      | '&' :: '&' :: rest =>
          classBody? engine flags fuel negated .none (some (.inter, combine flags set pending)) rest
      | '-' :: '-' :: rest =>
          classBody? engine flags fuel negated .none (some (.diff, combine flags set pending)) rest
      | '~' :: '~' :: rest =>
          classBody? engine flags fuel negated .none (some (.symmDiff, combine flags set pending))
            rest
      | '[' :: rest =>
          match asciiClass? rest with
          | some (innerNegated, members, after) =>
              match closeClass? flags innerNegated members with
              | some inner => classBody? engine flags fuel negated (.union set inner) pending after
              | none => none
          | none =>
              let (innerNegated, first, start) := classStart flags rest
              match classBody? engine flags fuel innerNegated first none start with
              | some (inner, after) =>
                  classBody? engine flags fuel negated (.union set inner) pending after
              | none => none
      | c :: rest =>
          match classRange? engine flags (c :: rest) with
          | some (item, after) =>
              classBody? engine flags fuel negated (.union set item) pending after
          | none => none

/-- A class, after its opening bracket. -/
def class? (engine : Engine) (flags : Flags) (text : List Char) : Option (CharSet × List Char) :=
  let (negated, first, start) := classStart flags text
  classBody? engine flags (text.length + 1) negated first none start

/-! ## Repetitions -/

/-- A number with blanks around it, which has to fit in 32 bits. -/
def count? (flags : Flags) (text : List Char) : Option (Nat × List Char) :=
  match run flags Char.isDigit (text.dropWhile Text.isSpaceChar) with
  | ([], _) => none
  | (digits, after) =>
      let n := digits.foldl (fun n c => 10 * n + (c.toNat - '0'.toNat)) 0
      if n < 4294967296 then some (n, (run flags Text.isSpaceChar after).2) else none

/-- The bounds of a counted repetition, after its opening brace. -/
def bounds? (flags : Flags) (text : List Char) : Option (Nat × Option Nat × List Char) := do
  let (least, after) ← count? flags (skip flags text)
  match after with
  | '\x7d' :: rest => some (least, some least, rest)
  | ',' :: rest =>
      match skip flags rest with
      | '\x7d' :: rest => some (least, none, rest)
      | rest => do
          let (most, after) ← count? flags rest
          match after with
          | '\x7d' :: rest => if least ≤ most then some (least, some most, rest) else none
          | _ => none
  | _ => none

/-- What follows the mark that makes a repetition lazy. -/
def dropLazy : List Char → List Char
  | '?' :: rest => rest
  | rest => rest

/-- The bounds of a repetition operator at the front of a text; a question mark after it makes it
lazy. -/
def repetition? (flags : Flags) : List Char → Option (Nat × Option Nat × List Char)
  | '*' :: rest => some (0, none, dropLazy rest)
  | '+' :: rest => some (1, none, dropLazy rest)
  | '?' :: rest => some (0, some 1, dropLazy rest)
  | '\x7b' :: rest =>
      (bounds? flags rest).map fun (least, most, after) =>
        (least, most, dropLazy (skip flags after))
  | _ => none

/-! ## Groups and sequences -/

/-- Whether a character can stand in the name of a group. -/
def isGroupNameChar (engine : Engine) (first : Bool) (c : Char) : Bool :=
  c == '_' || engine.isAlphabetic c
    || (!first && (engine.isNumeric c || c == '.' || c == '[' || c == ']'))

/-- The name of a group, up to the angle bracket that closes it. -/
def groupName? (engine : Engine) (text : List Char) : Option (String × List Char) :=
  match text.span (· != '>') with
  | (first :: others, _ :: after) =>
      if isGroupNameChar engine true first && others.all (isGroupNameChar engine false) then
        some (String.ofList (first :: others), after)
      else none
  | _ => none

/-- The opening of a group. -/
inductive Opening where
  /-- A group whose contents are read under the given flags. -/
  | group (flags : Flags) (names : List String)
  /-- Flags for the rest of the surrounding group. -/
  | directive (flags : Flags)

/-- Reads the opening of a group, after its parenthesis.  Names of groups must differ. -/
def opening? (engine : Engine) (flags : Flags) (names : List String) (text : List Char) :
    Option (Opening × List Char) :=
  let named (rest : List Char) : Option (Opening × List Char) := do
    let (name, after) ← groupName? engine rest
    if name ∈ names then none else some (.group flags (name :: names), after)
  match skip flags text with
  | '?' :: '=' :: _ => none
  | '?' :: '!' :: _ => none
  | '?' :: '<' :: '=' :: _ => none
  | '?' :: '<' :: '!' :: _ => none
  | '?' :: 'P' :: '<' :: rest => named rest
  | '?' :: '<' :: rest => named rest
  | '?' :: rest => do
      let (inner, last, any, after) ← readFlags? [] true flags rest
      if last = ':' then some (.group inner names, after)
      else if any then some (.directive inner, after)
      else none
  | rest => some (.group flags names, rest)

/-- A character that stands for itself. -/
def literal (flags : Flags) (c : Char) : Pattern := .chars (foldSet flags (.single c))

/-- What an escape matches. -/
def ofEscape (flags : Flags) : Escape → Pattern
  | .char c => literal flags c
  | .set set => .chars set
  | .anchor test => .anchor test

/-- The characters that a dot matches. -/
def dot (flags : Flags) : CharSet :=
  if flags.dotAll then .any
  else if flags.crlf then .compl (.union (.single '\n') (.single '\r'))
  else .compl (.single '\n')

/-- The patterns of a sequence, read in reverse; flags leave no pattern. -/
def sequence (pieces : List (Option Pattern)) : Pattern :=
  concat (pieces.reverse.filterMap id)

/-- One character, class, escape or anchor. -/
def atom? (engine : Engine) (flags : Flags) : List Char → Option (Pattern × List Char)
  | [] => none
  | '\\' :: rest => (escape? engine flags rest).map fun (e, after) => (ofEscape flags e, after)
  | '.' :: rest => if flags.unicode then some (.chars (dot flags), rest) else none
  | '^' :: rest =>
      some (.anchor (if flags.multiLine then .lineStart flags.crlf else .textStart), rest)
  | '$' :: rest =>
      some (.anchor (if flags.multiLine then .lineEnd flags.crlf else .textEnd), rest)
  | '[' :: rest => (class? engine flags rest).map fun (set, after) => (.chars set, after)
  | c :: rest => some (literal flags c, rest)

/-- Whether a character starts a repetition operator. -/
def isRepetition (c : Char) : Bool := c == '*' || c == '+' || c == '?' || c == '\x7b'

/-- Reads alternatives up to the end of the text or the parenthesis that closes the group.
`branches` holds the alternatives before the current one and `pieces` what was read of it, both in
reverse.  Gives the pattern, the names of groups so far and the rest.  The fuel bounds the number
of characters read. -/
def body? (engine : Engine) : Nat → Flags → List String → List Pattern → List (Option Pattern) →
    List Char → Option (Pattern × List String × List Char)
  | 0, _, _, _, _, _ => none
  | fuel + 1, flags, names, branches, pieces, text =>
      match skip flags text with
      | [] => some (choice (sequence pieces :: branches).reverse, names, [])
      | ')' :: rest => some (choice (sequence pieces :: branches).reverse, names, ')' :: rest)
      | '|' :: rest => body? engine fuel flags names (sequence pieces :: branches) [] rest
      | '(' :: rest =>
          match opening? engine flags names rest with
          | some (.directive inner, after) =>
              body? engine fuel inner names branches (none :: pieces) after
          | some (.group inner innerNames, after) =>
              match body? engine fuel inner innerNames [] [] after with
              | some (group, names, ')' :: after) =>
                  body? engine fuel flags names branches (some group :: pieces) after
              | _ => none
          | none => none
      | c :: rest =>
          if isRepetition c then
            match pieces, repetition? flags (c :: rest) with
            | some last :: pieces, some (least, most, after) =>
                body? engine fuel flags names branches (some (.many last least most) :: pieces)
                  after
            | _, _ => none
          else
            match atom? engine flags (c :: rest) with
            | some (piece, after) =>
                body? engine fuel flags names branches (some piece :: pieces) after
            | none => none

/-- Reads a pattern. -/
def ofText? (engine : Engine) (text : String) : Option Pattern :=
  match body? engine (text.length + 1) { } [] [] [] text.toList with
  | some (pattern, _, []) => some pattern
  | _ => none

end Pattern

end ResponseModel
