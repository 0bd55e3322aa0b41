import ResponseModel.Error
import ResponseModel.Literal

/-!
# Conditions

The condition under which a selection is part of a response.  Conditions have one form each:
`always`, `never`, one term, or a conjunction of several terms sorted by variable.
-/

namespace ResponseModel

/-- A variable that has to be true, or false if the term is negated. -/
structure Condition.Term where
  name : Name
  negated : Bool
  deriving DecidableEq, Inhabited

/-- A condition on the variables of an operation. -/
inductive Condition where
  | always
  | never
  | one (term : Condition.Term)
  | conj (terms : List Condition.Term)
  deriving DecidableEq, Inhabited

namespace Condition

/-- The term that asks for the opposite. -/
def Term.not (term : Term) : Term := { term with negated := !term.negated }

/-- The condition that a variable is true. -/
def var (name : Name) : Condition := .one ⟨name, false⟩

/-- The terms that have to hold, unless the condition can never hold. -/
def terms? : Condition → Option (List Term)
  | .always => some []
  | .never => none
  | .one term => some [term]
  | .conj terms => some terms

/-- The condition that the given terms hold. -/
def ofTerms : List Term → Condition
  | [] => .always
  | [term] => .one term
  | terms => .conj terms

/-! ## Conjunction -/

/-- Inserts a term into terms sorted by variable.  There is no result if the variable is already
asked for with the opposite sign. -/
def insertTerm? (term : Term) : List Term → Option (List Term)
  | [] => some [term]
  | first :: rest =>
      if term.name < first.name then some (term :: first :: rest)
      else if term.name = first.name then
        if term.negated = first.negated then some (first :: rest) else none
      else (insertTerm? term rest).map (first :: ·)

/-- Inserts several terms. -/
def insertTerms? : List Term → List Term → Option (List Term)
  | [], sorted => some sorted
  | term :: rest, sorted => (insertTerms? rest sorted).bind (insertTerm? term)

/-- All terms of a list of conditions, sorted by variable, unless they contradict each other. -/
def gather? : List Condition → Option (List Term)
  | [] => some []
  | condition :: rest =>
      (gather? rest).bind fun sorted => condition.terms?.bind (insertTerms? · sorted)

/-- The conjunction of a list of conditions. -/
def all (conditions : List Condition) : Condition :=
  match gather? conditions with
  | none => .never
  | some terms => ofTerms terms

/-- The conjunction of two conditions. -/
def and (left right : Condition) : Condition := all [left, right]

/-- The one form of a condition. -/
def simplify (condition : Condition) : Condition := all [condition]

/-! ## Merging branches -/

/-- The strongest condition that every branch implies.  Branches that never hold do not count; of
the others only the shared terms are kept. -/
def any (branches : List Condition) : Condition :=
  match branches.filterMap terms? with
  | [] => .never
  | first :: others =>
      all ((first.filter fun term => others.all (term ∈ ·)).map .one)

/-! ## Reading directives -/

/-- What one `@skip` or `@include` asks for. -/
def ofArgument (directive : Name) (skip : Bool) : Literal → Except DocumentError Condition
  | .boolean value => .ok (if value = skip then .never else .always)
  | .var name => .ok (.one ⟨name, skip⟩)
  | literal => .error (.conditionArgument directive (literal.display 0))

/-- The conditions of a list of directives; `seen` holds the condition directives before it. -/
def readDirectives (selection : String) :
    List Name → List Directive → Except DocumentError (List Condition)
  | _, [] => .ok []
  | seen, directive :: rest =>
      if directive.name = "skip" ∨ directive.name = "include" then
        if directive.name ∈ seen then
          .error (.duplicateCondition directive.name selection)
        else
          match directive.arguments with
          | [(_, value)] => do
              let condition ← ofArgument directive.name (directive.name == "skip") value
              let others ← readDirectives selection (directive.name :: seen) rest
              .ok (condition :: others)
          | arguments => .error (.conditionArgumentCount directive.name arguments.length)
      else readDirectives selection seen rest

/-- The condition that the `@skip` and `@include` directives of a selection ask for.  Other
directives are ignored. -/
def ofDirectives (directives : List Directive) (selection : String) :
    Except DocumentError Condition :=
  (readDirectives selection [] directives).map all

/-! ## Text -/

/-- The variables of a condition. -/
def names (condition : Condition) : List Name :=
  match condition.terms? with
  | none => []
  | some terms => terms.map Term.name

/-- Whether the condition is `always`. -/
def isAlways : Condition → Bool
  | .always => true
  | _ => false

/-- The variable, with a mark if the term is negated. -/
def Term.text (term : Term) : String :=
  (if term.negated then "!" else "") ++ "$" ++ term.name

/-- The condition as a conjunction. -/
def text : Condition → String
  | .always => "true"
  | .never => "false"
  | .one term => term.text
  | .conj terms => " && ".intercalate (terms.map Term.text)

end Condition

end ResponseModel
