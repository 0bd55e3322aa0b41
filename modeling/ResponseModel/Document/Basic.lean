import ResponseModel.Error
import ResponseModel.Literal
import ResponseModel.TypeRef

/-!
# Documents

Operations and fragments as they are written: fields without their definitions, spreads by name.
-/

namespace ResponseModel

/-- A selected field, apart from what is selected below it. -/
structure FieldNode where
  aliasName : Option Name
  name : Name
  arguments : List (Name × Literal)
  directives : List Directive
  deriving Inhabited

/-- The key of the field in responses. -/
def FieldNode.responseName (node : FieldNode) : Name := node.aliasName.getD node.name

/-- A selection. -/
inductive Selection where
  | field (node : FieldNode) (selections : List Selection)
  | spread (name : Name) (directives : List Directive)
  | inline (condition : Option Name) (directives : List Directive) (selections : List Selection)
  deriving Inhabited

/-- A variable that an operation declares. -/
structure VariableDefinition where
  name : Name
  type : TypeRef
  defaultValue : Option Literal
  directives : List Directive
  deriving Inhabited

/-- An operation. -/
structure Operation where
  kind : OperationKind
  name : Option Name
  vars : List VariableDefinition
  directives : List Directive
  selections : List Selection
  deriving Inhabited

/-- A named fragment. -/
structure Fragment where
  name : Name
  onType : Name
  directives : List Directive
  selections : List Selection
  deriving Inhabited

/-- A document, with the path of its file if it has one. -/
structure Document where
  path : Option String
  operations : List Operation
  fragments : List Fragment
  deriving Inhabited

/-- The path of the file, or nothing. -/
def Document.filePath (document : Document) : String := document.path.getD ""

/-- The operations of a document, those without a name first. -/
def Document.inOrder (document : Document) : List Operation :=
  document.operations.filter (·.name.isNone) ++ document.operations.filter (·.name.isSome)

end ResponseModel
