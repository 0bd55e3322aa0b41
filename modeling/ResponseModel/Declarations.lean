import ResponseModel.Coercion
import ResponseModel.Config
import ResponseModel.Shape.Basic

/-!
# Declarations

The enums, input objects and custom scalars that come with a model: those that it uses, those that
the configuration asks for, and those that the fields of listed input objects use in turn.
-/

namespace ResponseModel

/-- A field of an input object. -/
structure InputField where
  name : Name
  description : Option String
  deprecationReason : Option String
  type : ModelType
  defaultValue : Option Value
  deriving Inhabited

/-- An input object. -/
structure InputObject where
  name : Name
  description : Option String
  deprecationReason : Option String
  fields : List InputField
  deriving Inhabited

/-- A symbol of an enum. -/
structure EnumSymbol where
  name : Name
  description : Option String
  deprecationReason : Option String
  deriving DecidableEq, Inhabited

/-- An enum. -/
structure EnumType where
  name : Name
  description : Option String
  symbols : List EnumSymbol
  deriving DecidableEq, Inhabited

/-- A custom scalar. -/
structure CustomScalar where
  name : Name
  description : Option String
  deriving DecidableEq, Inhabited

/-- The declarations that come with a model, each sort in the order of the schema. -/
structure Declarations where
  inputObjects : List InputObject
  enums : List EnumType
  customScalars : List CustomScalar
  deriving Inhabited

/-! ## Needed types -/

/-- The names of used types that need a declaration, by kind, in the order of their first use. -/
structure NeededTypes where
  inputObjects : List Name
  enums : List Name
  customScalars : List Name
  deriving DecidableEq, Inhabited

namespace NeededTypes

/-- No type is needed. -/
def empty : NeededTypes := ⟨[], [], []⟩

/-- Adds a named type, if it is of a kind that needs a declaration. -/
def add (needed : NeededTypes) : NamedType → NeededTypes
  | .inputObject name => { needed with inputObjects := insertNew needed.inputObjects name }
  | .enum name => { needed with enums := insertNew needed.enums name }
  | .customScalar name => { needed with customScalars := insertNew needed.customScalars name }
  | _ => needed

/-- Adds the named types of a list. -/
def addAll (needed : NeededTypes) (types : List NamedType) : NeededTypes :=
  types.foldl add needed

/-- Adds a type of the schema, if the configuration asks for it. -/
def addConfigured (config : Config) (needed : NeededTypes) (definition : TypeDefinition) :
    NeededTypes :=
  if config.alwaysGenerates definition.name then
    match definition.body with
    | .inputObject _ => needed.add (.inputObject definition.name)
    | .enum _ => needed.add (.enum definition.name)
    | .scalar => needed.add (.customScalar definition.name)
    | _ => needed
  else needed

end NeededTypes

namespace Declarations

/-! ## Input objects -/

/-- A field of an input object, with its default coerced. -/
def inputField (schema : Schema) (definition : InputDefinition) :
    Except BuildError InputField := do
  let defaultValue ←
    (Coercion.coerceOption schema definition.type definition.defaultValue).mapError .coercion
  let type ← (schema.modelType definition.type).mapError .document
  .ok
    { name := definition.name
      description := definition.description
      deprecationReason := deprecationReason? definition.directives
      type
      defaultValue }

/-- The fields of an input object. -/
def inputFields (schema : Schema) : List InputDefinition → Except BuildError (List InputField)
  | [] => .ok []
  | definition :: rest => do
      let first ← inputField schema definition
      let others ← inputFields schema rest
      .ok (first :: others)

/-- An input object by its name. -/
def inputObject (schema : Schema) (name : Name) : Except BuildError InputObject :=
  match schema.type? name with
  | some ⟨_, description, directives, .inputObject definitions⟩ => do
      let fields ← inputFields schema definitions
      .ok { name, description, deprecationReason := deprecationReason? directives, fields }
  | _ => .error (.document (.unknownType name))

/-- The state of listing input objects: the needed types, and the input objects listed so far. -/
structure Listing where
  needed : NeededTypes
  listed : List InputObject
  deriving Inhabited

/-- The needed input objects that are not listed yet. -/
def Listing.pending (listing : Listing) : List Name :=
  listing.needed.inputObjects.filter fun name => !listing.listed.any (·.name = name)

/-- Lists one input object, with the types that its fields use. -/
def Listing.add (schema : Schema) (listing : Listing) (name : Name) :
    Except BuildError Listing := do
  let object ← inputObject schema name
  .ok ⟨listing.needed.addAll (object.fields.map fun field => field.type.leaf),
    listing.listed ++ [object]⟩

/-- Lists pending input objects until there are none.  The fuel bounds the number of rounds, each
of which lists a declaration of the schema that was not listed before. -/
def Listing.complete (schema : Schema) : Nat → Listing → Except BuildError Listing
  | 0, listing => .ok listing
  | fuel + 1, listing =>
      match listing.pending with
      | [] => .ok listing
      | pending => do
          let listing ← pending.foldlM (Listing.add schema) listing
          Listing.complete schema fuel listing

/-! ## All declarations -/

/-- The input object that a declaration of the schema declares, if it is listed. -/
def listedObject? (listing : Listing) (definition : TypeDefinition) : Option InputObject :=
  match definition.body with
  | .inputObject _ => listing.listed.find? (·.name = definition.name)
  | _ => none

/-- The enum that a declaration of the schema declares, if it is needed. -/
def neededEnum? (needed : NeededTypes) (definition : TypeDefinition) : Option EnumType :=
  match definition.body with
  | .enum values =>
      if definition.name ∈ needed.enums then
        some
          { name := definition.name
            description := definition.description
            symbols := values.map fun value =>
              { name := value.name
                description := value.description
                deprecationReason := deprecationReason? value.directives } }
      else none
  | _ => none

/-- The custom scalar that a declaration of the schema declares, if it is needed. -/
def neededScalar? (needed : NeededTypes) (definition : TypeDefinition) : Option CustomScalar :=
  match definition.body with
  | .scalar =>
      if definition.name ∈ needed.customScalars then
        some ⟨definition.name, definition.description⟩
      else none
  | _ => none

/-- The declarations that come with a model during whose build the given types were marked. -/
def ofMarks (schema : Schema) (config : Config) (marks : List NamedType) :
    Except BuildError Declarations := do
  let needed :=
    schema.types.foldl (NeededTypes.addConfigured config) (NeededTypes.empty.addAll marks)
  let listing ← Listing.complete schema (schema.allTypes.length + 1) ⟨needed, []⟩
  .ok
    { inputObjects := schema.types.filterMap (listedObject? listing)
      enums := schema.types.filterMap (neededEnum? listing.needed)
      customScalars := schema.types.filterMap (neededScalar? listing.needed) }

end Declarations

end ResponseModel
