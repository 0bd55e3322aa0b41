import ResponseModel.Ordered

/-!
# Types of the model

The type of a field, an argument, a variable or an input field, with the kind of its innermost
named type read off the schema.
-/

namespace ResponseModel

/-- The kind of a named type. -/
inductive TypeKind where
  | builtInScalar
  | customScalar
  | enum
  | object
  | interface
  | union
  | inputObject
  deriving DecidableEq, Inhabited

/-- A named type with its kind. -/
inductive NamedType where
  | string
  | int
  | float
  | boolean
  | id
  | customScalar (name : Name)
  | enum (name : Name)
  | object (name : Name)
  | interface (name : Name)
  | union (name : Name)
  | inputObject (name : Name)
  deriving DecidableEq, Inhabited

namespace NamedType

/-- The name of the type in the schema. -/
def name : NamedType → Name
  | .string => "String"
  | .int => "Int"
  | .float => "Float"
  | .boolean => "Boolean"
  | .id => "ID"
  | .customScalar name => name
  | .enum name => name
  | .object name => name
  | .interface name => name
  | .union name => name
  | .inputObject name => name

/-- The kind of the type. -/
def kind : NamedType → TypeKind
  | .string | .int | .float | .boolean | .id => .builtInScalar
  | .customScalar _ => .customScalar
  | .enum _ => .enum
  | .object _ => .object
  | .interface _ => .interface
  | .union _ => .union
  | .inputObject _ => .inputObject

/-- The built-in scalar of a given name. -/
def builtIn? (name : Name) : Option NamedType :=
  if name = "String" then some .string
  else if name = "Int" then some .int
  else if name = "Float" then some .float
  else if name = "Boolean" then some .boolean
  else if name = "ID" then some .id
  else none

/-- Whether fields of the type have sub-selections. -/
def isComposite (type : NamedType) : Bool :=
  match type.kind with
  | .object | .interface | .union => true
  | _ => false

/-- Two named types are the same type when they have the same name, whatever their kind. -/
def same (left right : NamedType) : Bool := left.name == right.name

end NamedType

/-- A named type under list and non-null wrappers. -/
inductive ModelType where
  | nonNull (of : ModelType)
  | list (of : ModelType)
  | named (type : NamedType)
  deriving DecidableEq, Inhabited

namespace ModelType

/-- The innermost named type. -/
def leaf : ModelType → NamedType
  | .nonNull of => of.leaf
  | .list of => of.leaf
  | .named type => type

/-- The name of the innermost named type. -/
def leafName (type : ModelType) : Name := type.leaf.name

/-- Whether the outermost wrapper forbids null. -/
def isNonNull : ModelType → Bool
  | .nonNull _ => true
  | _ => false

/-- Whether two types have the same wrappers around the same named type. -/
def same : ModelType → ModelType → Bool
  | .nonNull left, .nonNull right => left.same right
  | .list left, .list right => left.same right
  | .named left, .named right => left.same right
  | _, _ => false

/-- The type in GraphQL notation. -/
def text : ModelType → String
  | .nonNull of => of.text ++ "!"
  | .list of => "[" ++ of.text ++ "]"
  | .named type => type.name

end ModelType

end ResponseModel
