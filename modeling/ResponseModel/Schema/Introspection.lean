import ResponseModel.Schema.Basic

/-!
# Built-in declarations

The types and directives that every schema has: the five scalars, the types through which a
schema describes itself, and four directives.
-/

namespace ResponseModel

namespace Introspection

/-! ## Short forms -/

/-- A type that admits null. -/
def opt (name : Name) : TypeRef := .named name false

/-- A type that forbids null. -/
def req (name : Name) : TypeRef := .named name true

/-- A list that admits null, of items that do not. -/
def optList (name : Name) : TypeRef := .list (req name) false

/-- A list that forbids null, of items that do too. -/
def reqList (name : Name) : TypeRef := .list (req name) true

/-- A field without arguments. -/
def plain (name : Name) (type : TypeRef) : FieldDefinition := ⟨name, type, none, [], []⟩

/-- A field without arguments that is described. -/
def described (name : Name) (type : TypeRef) (description : String) : FieldDefinition :=
  ⟨name, type, some description, [], []⟩

/-- A field that can be asked to list what is deprecated too. -/
def withDeprecated (name : Name) (type : TypeRef) : FieldDefinition :=
  ⟨name, type, none,
    [⟨"includeDeprecated", opt "Boolean", none, some (.boolean false), []⟩], []⟩

/-- A scalar. -/
def scalar (name : Name) : TypeDefinition := ⟨name, none, [], .scalar⟩

/-- An object that implements nothing. -/
def object (name : Name) (fields : List FieldDefinition) : TypeDefinition :=
  ⟨name, none, [], .object [] fields⟩

/-- An enum. -/
def enum (name : Name) (symbols : List Name) : TypeDefinition :=
  ⟨name, none, [], .enum (symbols.map fun symbol => ⟨symbol, none, []⟩)⟩

/-! ## Types -/

/-- The types that describe a schema. -/
def schemaTypes : List TypeDefinition :=
  [object "__Schema"
    [plain "description" (opt "String"),
      described "types" (reqList "__Type") "A list of all types supported by this server.",
      described "queryType" (req "__Type")
        "The type that query operations will be rooted at.",
      described "mutationType" (opt "__Type")
        ("If this server supports mutation, "
          ++ "the type that mutation operations will be rooted at."),
      described "subscriptionType" (opt "__Type")
        ("If this server support subscription, "
          ++ "the type that subscription operations will be rooted at."),
      described "directives" (reqList "__Directive")
        "A list of all directives supported by this server."],
    object "__Type"
      [plain "kind" (req "__TypeKind"), plain "name" (opt "String"),
        plain "description" (opt "String"), withDeprecated "fields" (optList "__Field"),
        plain "interfaces" (optList "__Type"), plain "possibleTypes" (optList "__Type"),
        withDeprecated "enumValues" (optList "__EnumValue"),
        withDeprecated "inputFields" (optList "__InputValue"), plain "ofType" (opt "__Type"),
        plain "specifiedByURL" (opt "String")],
    enum "__TypeKind"
      ["SCALAR", "OBJECT", "INTERFACE", "UNION", "ENUM", "INPUT_OBJECT", "LIST", "NON_NULL"],
    object "__Field"
      [plain "name" (req "String"), plain "description" (opt "String"),
        withDeprecated "args" (reqList "__InputValue"), plain "type" (req "__Type"),
        plain "isDeprecated" (req "Boolean"), plain "deprecationReason" (opt "String")],
    object "__InputValue"
      [plain "name" (req "String"), plain "description" (opt "String"),
        plain "type" (req "__Type"),
        described "defaultValue" (opt "String")
          "A GraphQL-formatted string representing the default value for this input value.",
        plain "isDeprecated" (req "Boolean"), plain "deprecationReason" (opt "String")],
    object "__EnumValue"
      [plain "name" (req "String"), plain "description" (opt "String"),
        plain "isDeprecated" (req "Boolean"), plain "deprecationReason" (opt "String")],
    object "__Directive"
      [plain "name" (req "String"), plain "description" (opt "String"),
        plain "locations" (reqList "__DirectiveLocation"),
        withDeprecated "args" (reqList "__InputValue"), plain "isRepeatable" (req "Boolean")],
    enum "__DirectiveLocation"
      ["QUERY", "MUTATION", "SUBSCRIPTION", "FIELD", "FRAGMENT_DEFINITION", "FRAGMENT_SPREAD",
        "INLINE_FRAGMENT", "VARIABLE_DEFINITION", "SCHEMA", "SCALAR", "OBJECT",
        "FIELD_DEFINITION", "ARGUMENT_DEFINITION", "INTERFACE", "UNION", "ENUM", "ENUM_VALUE",
        "INPUT_OBJECT", "INPUT_FIELD_DEFINITION"]]

/-- The types that every schema has. -/
def types : List TypeDefinition :=
  [scalar "Int", scalar "Float", scalar "String", scalar "Boolean", scalar "ID"] ++ schemaTypes

/-! ## Directives -/

/-- A directive with one argument. -/
def directive (name argument : Name) (type : TypeRef) (defaultValue : Option Literal) :
    DirectiveDefinition :=
  ⟨name, [⟨argument, type, none, defaultValue, []⟩]⟩

/-- The directives that every schema has. -/
def directives : List DirectiveDefinition :=
  [directive "skip" "if" (req "Boolean") none,
    directive "include" "if" (req "Boolean") none,
    directive "deprecated" "reason" (opt "String") (some (.string defaultDeprecationReason)),
    directive "specifiedBy" "url" (req "String") none]

/-! ## Fields -/

/-- The field with the name of the concrete type, which every composite type has. -/
def typenameField : FieldDefinition := plain "__typename" (req "String")

/-- The fields through which the query root gives access to the schema. -/
def rootFields : List FieldDefinition :=
  [plain "__schema" (req "__Schema"),
    ⟨"__type", opt "__Type", none, [⟨"name", req "String", none, none, []⟩], []⟩]

end Introspection

end ResponseModel
