import ResponseModel.Error
import ResponseModel.Literal
import ResponseModel.TypeRef

/-!
# Schemas

The declarations of a schema, as they were written.  Nothing is assumed about them: a schema may
name types that it does not declare or give default values that do not fit.
-/

namespace ResponseModel

/-- An argument of a field or a directive, or a field of an input object. -/
structure InputDefinition where
  name : Name
  type : TypeRef
  description : Option String
  defaultValue : Option Literal
  directives : List Directive
  deriving Inhabited

/-- Whether a value has to be given: null is forbidden and there is no default. -/
def InputDefinition.isRequired (definition : InputDefinition) : Bool :=
  definition.type.isRequired && definition.defaultValue.isNone

/-- A field of an object or an interface. -/
structure FieldDefinition where
  name : Name
  type : TypeRef
  description : Option String
  arguments : List InputDefinition
  directives : List Directive
  deriving Inhabited

/-- The argument of a given name. -/
def FieldDefinition.argument? (definition : FieldDefinition) (name : Name) :
    Option InputDefinition :=
  definition.arguments.find? (·.name = name)

/-- A symbol of an enum. -/
structure EnumValueDefinition where
  name : Name
  description : Option String
  directives : List Directive
  deriving Inhabited

/-- What a declaration of a type declares. -/
inductive TypeBody where
  | scalar
  | object (interfaces : List Name) (fields : List FieldDefinition)
  | interface (interfaces : List Name) (fields : List FieldDefinition)
  | union (members : List Name)
  | enum (values : List EnumValueDefinition)
  | inputObject (fields : List InputDefinition)
  deriving Inhabited

/-- A declaration of a type. -/
structure TypeDefinition where
  name : Name
  description : Option String
  directives : List Directive
  body : TypeBody
  deriving Inhabited

/-- A declaration of a directive. -/
structure DirectiveDefinition where
  name : Name
  arguments : List InputDefinition
  deriving Inhabited

/-- The argument of a given name. -/
def DirectiveDefinition.argument? (definition : DirectiveDefinition) (name : Name) :
    Option InputDefinition :=
  definition.arguments.find? (·.name = name)

/-! ## Deprecation -/

/-- The reason that a deprecation gives if none is written. -/
def defaultDeprecationReason : String := "No longer supported"

/-- The reason in the arguments of a deprecation. -/
def reasonOf (arguments : List (Name × Literal)) : String :=
  match arguments.lookup "reason" with
  | some (.string reason) => reason
  | _ => defaultDeprecationReason

/-- The reason for a deprecation, if there is one among the directives. -/
def deprecationReason? (directives : List Directive) : Option String :=
  (directives.find? (·.name = "deprecated")).map fun directive => reasonOf directive.arguments

end ResponseModel
