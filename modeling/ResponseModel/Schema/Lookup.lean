import ResponseModel.ModelType
import ResponseModel.Schema.Introspection

/-!
# Looking things up in a schema

A schema with the built-in declarations in front of its own, and what can be asked of it.
-/

namespace ResponseModel

/-- A schema: its root types, its own declarations of types and of directives. -/
structure Schema where
  queryRoot : Option Name
  mutationRoot : Option Name
  subscriptionRoot : Option Name
  types : List TypeDefinition
  directives : List DirectiveDefinition
  deriving Inhabited

namespace Schema

/-- All declarations of types, the built-in ones first. -/
def allTypes (schema : Schema) : List TypeDefinition := Introspection.types ++ schema.types

/-- The declaration of a type. -/
def type? (schema : Schema) (name : Name) : Option TypeDefinition :=
  schema.allTypes.find? (·.name = name)

/-- What the declaration of a type declares. -/
def body? (schema : Schema) (name : Name) : Option TypeBody :=
  (schema.type? name).map TypeDefinition.body

/-- The fields of an input object. -/
def inputFields? (schema : Schema) (name : Name) : Option (List InputDefinition) :=
  match schema.body? name with
  | some (.inputObject fields) => some fields
  | _ => none

/-- The declaration of a directive.  An own declaration hides a built-in one. -/
def directive? (schema : Schema) (name : Name) : Option DirectiveDefinition :=
  (schema.directives ++ Introspection.directives).find? (·.name = name)

/-- The root type of a kind of operation. -/
def root? (schema : Schema) : OperationKind → Option Name
  | .query => schema.queryRoot
  | .mutation => schema.mutationRoot
  | .subscription => schema.subscriptionRoot

/-! ## Fields -/

/-- The fields that a composite type declares. -/
def declaredFields : TypeBody → List FieldDefinition
  | .object _ fields => fields
  | .interface _ fields => fields
  | _ => []

/-- Whether objects of the type tell the name of their concrete type. -/
def hasTypename : TypeBody → Bool
  | .object .. => true
  | .interface .. => true
  | .union _ => true
  | _ => false

/-- The fields that can be selected on a type besides the declared ones. -/
def metaFields (schema : Schema) (name : Name) (body : TypeBody) : List FieldDefinition :=
  (if hasTypename body then [Introspection.typenameField] else [])
    ++ (if schema.queryRoot = some name then Introspection.rootFields else [])

/-- The definition of a field that is selected on a type. -/
def field? (schema : Schema) (parent name : Name) : Option FieldDefinition :=
  (schema.body? parent).bind fun body =>
    (declaredFields body ++ schema.metaFields parent body).find? (·.name = name)

/-! ## Possible types -/

/-- The concrete types that a declaration adds to those of a given type: an object counts for
itself and for each of its interfaces, a union adds its members. -/
def contribution (name : Name) (definition : TypeDefinition) : List Name :=
  match definition.body with
  | .object interfaces _ =>
      if definition.name = name ∨ name ∈ interfaces then [definition.name] else []
  | .union members => if definition.name = name then members else []
  | _ => []

/-- The concrete object types that a type can resolve to, in the order of declaration. -/
def possibleTypes (schema : Schema) (name : Name) : List Name :=
  distinct (schema.allTypes.flatMap (contribution name))

/-- Whether every given concrete type is possible for a type. -/
def covers (schema : Schema) (name : Name) (concrete : List Name) : Bool :=
  concrete.all (· ∈ schema.possibleTypes name)

/-- The concrete types that are possible for every one of the names, in the order of the first. -/
def commonTypes (schema : Schema) : List Name → List Name
  | [] => []
  | first :: others =>
      (schema.possibleTypes first).filter fun concrete =>
        others.all fun name => concrete ∈ schema.possibleTypes name

/-! ## Resolving types -/

/-- A named type with the kind that the schema gives it. -/
def namedType (schema : Schema) (name : Name) : Except DocumentError NamedType :=
  match NamedType.builtIn? name with
  | some type => .ok type
  | none =>
      match schema.body? name with
      | none => .error (.unknownType name)
      | some .scalar => .ok (.customScalar name)
      | some (.enum _) => .ok (.enum name)
      | some (.inputObject _) => .ok (.inputObject name)
      | some (.object ..) => .ok (.object name)
      | some (.interface ..) => .ok (.interface name)
      | some (.union _) => .ok (.union name)

/-- Puts a non-null wrapper around a type, if asked for. -/
def wrap (required : Bool) (type : ModelType) : ModelType :=
  if required then .nonNull type else type

/-- A written type with the kind of its innermost name. -/
def modelType (schema : Schema) : TypeRef → Except DocumentError ModelType
  | .named name required => (schema.namedType name).map fun type => wrap required (.named type)
  | .list item required => (schema.modelType item).map fun type => wrap required (.list type)

end Schema

end ResponseModel
