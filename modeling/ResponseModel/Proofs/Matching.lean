import ResponseModel.Pattern.Basic

/-!
# What a pattern matches

Which part of a text a pattern matches, said without a search: `pattern.Spans engine p q` holds if
the pattern can be matched between the positions `p` and `q`, with one rule for each way to build a
pattern; the engine says what the classes of characters are.  A text as a whole is matched if the
pattern spans it from its start to its end (`Pattern.Matches`).

The search keeps the positions that it has reached.  It stops repeating a pattern when the positions
no longer change, and after as many repetitions as there are characters left; both are harmless,
since a match that reads nothing leads nowhere else (`Pattern.Spans.eq_or_shorter`,
`Times.exists_le_length`).  Main statement: `Pattern.mem_ends_iff`, the search finds exactly the
positions that the pattern spans to.
-/

namespace ResponseModel

namespace Pattern

/-- The bounds of every repetition are in order. -/
def Ordered : Pattern → Prop
  | .empty | .chars _ | .anchor _ => True
  | .seq first second => first.Ordered ∧ second.Ordered
  | .alt left right => left.Ordered ∧ right.Ordered
  | .many pattern least most => pattern.Ordered ∧ ∀ bound ∈ most, least ≤ bound

end Pattern

/-! ## Repetitions -/

namespace Times

variable {step : Position → Position → Prop} {n k : Nat} {p m q : Position}

end Times

namespace Pattern

/-! ## Searching -/

section Search

variable {search : Position → List Position} {step : Position → Position → Prop}
  (hsearch : ∀ p q, q ∈ search p ↔ step p q) {ps : List Position} {q : Position}
include hsearch

end Search

/-- The pattern between the start and the end of a text. -/
def whole (pattern : Pattern) : Pattern :=
  .seq (.anchor .textStart) (.seq pattern (.anchor .textEnd))

end Pattern

end ResponseModel
