import ResponseModel.Ordered

/-!
# Errors

What can stop a build.  Every error is final: no part of a model is returned with it.
-/

namespace ResponseModel

/-- The kind of an operation. -/
inductive OperationKind where
  | query
  | mutation
  | subscription
  deriving DecidableEq, Inhabited

/-- The keyword that introduces an operation of the kind. -/
def OperationKind.keyword : OperationKind → String
  | .query => "query"
  | .mutation => "mutation"
  | .subscription => "subscription"

/-- A fault in the operations and fragments themselves. -/
inductive DocumentError where
  | anonymousOperation
  | duplicateCondition (directive : Name) (selection : String)
  | conditionArgumentCount (directive : Name) (count : Nat)
  | conditionArgument (directive : Name) (value : String)
  | ambiguousVariable (fragment name : Name) (first second : String)
  | untypedVariable (fragment name : Name)
  | unknownFragment (name : Name)
  | unknownArgument (field argument : Name)
  | unknownType (name : Name)
  /-- A fragment that spreads itself, directly or through others. -/
  | cyclicFragment (name : Name)
  deriving DecidableEq, Inhabited

/-- A literal that does not fit the type of its position. -/
inductive CoercionError where
  | nullInRequired (expected : String)
  | mismatch (expected value : String)
  | invalidNumber (expected : Name) (value : String)
  | unknownField (object field : Name)
  | missingField (object field : Name)
  | duplicateField (object field : Name)
  | unknownType (name : Name)
  deriving DecidableEq, Inhabited

/-- Any fault that stops a build. -/
inductive BuildError where
  | missingRoot (kind : OperationKind) (operation : Name)
  | document (error : DocumentError)
  | coercion (error : CoercionError)
  deriving DecidableEq, Inhabited

/-! ## Messages -/

/-- A text between backquotes. -/
def tick (s : String) : String := "`" ++ s ++ "`"

/-- What went wrong, in words. -/
def DocumentError.message : DocumentError → String
  | .anonymousOperation => "anonymous operations are not supported"
  | .duplicateCondition directive selection =>
      "duplicate @" ++ directive ++ " directive on " ++ tick selection
  | .conditionArgumentCount directive count =>
      "wrong number of arguments for @" ++ directive ++ " directive: " ++ toString count
  | .conditionArgument directive value =>
      "cannot pass " ++ tick value ++ " to @" ++ directive ++ " directive"
  | .ambiguousVariable fragment name first second =>
      "variable " ++ tick ("$" ++ name) ++ " is used as both " ++ tick first ++ " and "
        ++ tick second ++ " in fragment " ++ tick fragment
  | .untypedVariable fragment name =>
      "variable " ++ tick ("$" ++ name) ++ " in fragment " ++ tick fragment
        ++ " is nested in a custom scalar value, its type cannot be inferred"
  | .unknownFragment name => "unknown fragment " ++ tick name
  | .unknownArgument field argument =>
      "unknown argument " ++ tick argument ++ " on field " ++ tick field
  | .unknownType name => "unknown type " ++ tick name
  | .cyclicFragment name => "fragment " ++ tick name ++ " spreads itself"

/-- What went wrong, in words. -/
def CoercionError.message : CoercionError → String
  | .nullInRequired expected => "expected a non-null " ++ tick expected ++ ", found null"
  | .mismatch expected value =>
      "expected a value of type " ++ tick expected ++ ", found " ++ tick value
  | .invalidNumber expected value => tick value ++ " is not a valid " ++ expected
  | .unknownField object field => "input object " ++ tick object ++ " has no field " ++ tick field
  | .missingField object field =>
      "missing required field " ++ tick field ++ " on input object " ++ tick object
  | .duplicateField object field =>
      "field " ++ tick field ++ " is given more than once for input object " ++ tick object
  | .unknownType name => "unknown input type " ++ tick name

/-- What went wrong, in words. -/
def BuildError.message : BuildError → String
  | .missingRoot kind operation =>
      "cannot find the root type for " ++ kind.keyword ++ " " ++ tick operation
  | .document error => error.message
  | .coercion error => error.message

end ResponseModel
