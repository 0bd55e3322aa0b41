import ResponseModel.Ordered

/-!
# Type references

A type as it is written in a schema or a document: a name under any number of lists, where every
level says whether null is forbidden there.
-/

namespace ResponseModel

/-- A written type. -/
inductive TypeRef where
  | named (name : Name) (required : Bool)
  | list (item : TypeRef) (required : Bool)
  deriving DecidableEq, Inhabited

namespace TypeRef

/-- Whether null is forbidden at the outermost level. -/
def isRequired : TypeRef → Bool
  | .named _ required => required
  | .list _ required => required

/-- The innermost name. -/
def innerName : TypeRef → Name
  | .named name _ => name
  | .list item _ => item.innerName

/-- The mark of a level that forbids null. -/
def bang (required : Bool) : String := if required then "!" else ""

/-- The type in GraphQL notation. -/
def text : TypeRef → String
  | .named name required => name ++ bang required
  | .list item required => "[" ++ item.text ++ "]" ++ bang required

/-! ## Reading -/

/-- Whether a character can be part of a name. -/
def isNameChar (c : Char) : Bool := c.isAlphanum || c == '_'

/-- A mark at the front of a text, and what follows. -/
def spanBang : List Char → Bool × List Char
  | '!' :: rest => (true, rest)
  | rest => (false, rest)

/-- Reads a type at the front of a text; the first argument bounds the nesting. -/
def read : Nat → List Char → Option (TypeRef × List Char)
  | 0, _ => none
  | depth + 1, '[' :: rest =>
      match read depth rest with
      | some (item, ']' :: tail) =>
          let (required, after) := spanBang tail
          some (.list item required, after)
      | _ => none
  | _ + 1, text =>
      match text.span isNameChar with
      | ([], _) => none
      | (name, tail) =>
          let (required, after) := spanBang tail
          some (.named (String.ofList name) required, after)

/-- Reads a type in GraphQL notation. -/
def ofText? (text : String) : Option TypeRef :=
  match read (text.length + 1) text.toList with
  | some (type, []) => some type
  | _ => none

/-! ## Common refinements -/

/-- The most permissive type that is at least as strict as both, if they agree in lists and name:
null is forbidden wherever one of them forbids it. -/
def meet? : TypeRef → TypeRef → Option TypeRef
  | .named left required, .named right required' =>
      if left = right then some (.named left (required || required')) else none
  | .list left required, .list right required' =>
      (meet? left right).map fun item => .list item (required || required')
  | _, _ => none

end TypeRef

end ResponseModel
