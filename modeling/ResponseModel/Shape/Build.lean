import ResponseModel.Coercion
import ResponseModel.Shape.Basic
import ResponseModel.Shape.Narrowing
import ResponseModel.Trace

/-!
# Building shapes

The shapes of a field are built one type set after the other.  A shape refines the earlier shapes
of the field with a smaller type set, the shapes of the fragments merged into it and the shapes
inherited from the field of the same name in the shapes that the surrounding shape refines, as
far as they stand for all its concrete types and have no field that it lacks.
-/

namespace ResponseModel

/-- What shapes are built from: the schema and the shapes of the fragments built before. -/
structure Builder where
  schema : Schema
  fragmentShapes : List (Name × List Shape)
  deriving Inhabited

/-- A field whose shapes are asked for. -/
structure Request where
  /-- The innermost type of the field. -/
  fieldType : Name
  responseName : Name
  /-- What is selected below the field, by all its occurrences. -/
  branches : List Branch
  /-- The path of the shape around the field. -/
  path : Path
  /-- The fields of the same name in the shapes that the shape around it refines. -/
  inherited : List Field
  deriving Inhabited

namespace Builder

/-! ## Arguments -/

/-- An argument of a field, coerced against its definition. -/
def argument (builder : Builder) (field : Name) (definition : FieldDefinition) :
    Name × Literal → Traced Argument
  | (name, literal) =>
      match definition.argument? name with
      | none => .ofDocument (.error (.unknownArgument field name))
      | some input => do
          let defaultValue ←
            .ofCoercion (Coercion.coerceOption builder.schema input.type input.defaultValue)
          let value ← .ofCoercion (Coercion.coerce builder.schema input.type literal)
          let type ← .mapType builder.schema input.type
          .ok { name, value, defaultValue, type }

/-! ## Refinement -/

/-- Whether a shape with the given concrete types and fields refines a candidate. -/
def refines (possibleTypes : List Name) (collected : Collected) (candidate : Shape) : Bool :=
  possibleTypes.all (· ∈ candidate.possibleTypes)
    && candidate.fields.all fun field => collected.selects field.responseName

/-- The candidates that a shape refines, one for every path. -/
def refined (possibleTypes : List Name) (collected : Collected) :
    List Path → List Shape → List Shape
  | _, [] => []
  | seen, candidate :: rest =>
      let path := candidate.fullPath.toInterface
      if refines possibleTypes collected candidate && !decide (path ∈ seen) then
        candidate :: refined possibleTypes collected (path :: seen) rest
      else refined possibleTypes collected seen rest

/-- The shapes that a shape could refine: earlier shapes of the field, then shapes of fragments,
then inherited ones. -/
def candidates (builder : Builder) (request : Request) (earlier : List Shape)
    (typeSet : TypeSet) (fragments : List Name) : List Shape :=
  (earlier.filter fun shape => shape.typeSet ≠ typeSet && shape.typeSet.subset typeSet)
    ++ fragments.flatMap (fun name => (builder.fragmentShapes.lookup name).getD [])
    ++ request.inherited.flatMap Field.shapes

/-! ## One level -/

/-- The shapes of the fields below, for a field with sub-selections. -/
def belowField (below : Request → Traced (List Shape)) (path : Path) (parents : List Shape)
    (responseName : Name) (merged : Merged) (definition : FieldDefinition) (type : ModelType) :
    Traced (List Shape) :=
  if type.leaf.isComposite then
    below
      { fieldType := definition.type.innerName
        responseName
        branches := merged.occurrences.map fun o => (o.selections, o.condition)
        path
        inherited := parents.filterMap (·.field? responseName) }
  else .ok []

/-- A field of a shape.  Of its occurrences, the first on the narrowest type gives the definition;
`parents` are the shapes that the shape around it refines. -/
def field (builder : Builder) (below : Request → Traced (List Shape)) (path : Path)
    (parents : List Shape) : Name × Merged → Traced Field
  | (responseName, merged) => do
      let narrowest :=
        merged.leastBy fun o => (builder.schema.possibleTypes o.parent).length
      let definition := narrowest.definition
      let type ← .mapType builder.schema definition.type
      let arguments ←
        Traced.each (builder.argument narrowest.node.name definition) narrowest.node.arguments
      let shapes ← belowField below path parents responseName merged definition type
      .ok
        { name := narrowest.node.name
          aliasName := narrowest.node.aliasName
          arguments
          description := definition.description
          deprecationReason := deprecationReason? definition.directives
          type
          isOverride := parents.any fun parent => (parent.field? responseName).isSome
          condition := Condition.any (merged.occurrences.map Occurrence.condition)
          shapes }

/-- The shape of a type set, after the earlier shapes of the field. -/
def shape (builder : Builder) (below : Request → Traced (List Shape)) (request : Request)
    (earlier : List Shape) (typeSet : TypeSet) : Traced Shape := do
  let possibleTypes := builder.schema.commonTypes typeSet.names
  let collected ←
    .ofDocument (collect (builder.schema.applies typeSet possibleTypes) request.branches)
  let path := request.path.append ⟨typeSet, request.fieldType, request.responseName⟩
  let parents := refined possibleTypes collected []
    (builder.candidates request earlier typeSet collected.fragments)
  let fields ← Traced.each (builder.field below path parents) collected.fields
  Traced.emit (.shape path possibleTypes.length parents.length)
  .ok
    { path := request.path
      responseName := request.responseName
      typeSet
      fieldType := request.fieldType
      fields
      possibleTypes
      implements := parents.map (·.fullPath.toInterface) }

/-- The shapes of the type sets of a list, after the earlier ones. -/
def shapesFrom (builder : Builder) (below : Request → Traced (List Shape)) (request : Request) :
    List Shape → List TypeSet → Traced (List Shape)
  | earlier, [] => .ok earlier
  | earlier, typeSet :: rest => do
      let shape ← builder.shape below request earlier typeSet
      shapesFrom builder below request (earlier ++ [shape]) rest

/-- The shapes of a field, given a way to build those of the fields below it. -/
def level (builder : Builder) (below : Request → Traced (List Shape)) (request : Request) :
    Traced (List Shape) := do
  let conditions ← .ofDocument (branchConditions request.branches)
  builder.shapesFrom below request [] (builder.schema.typeSets request.fieldType conditions)

/-! ## All levels -/

/-- The shapes of a field below which fields are nested at most `depth` deep. -/
def shapes (builder : Builder) : Nat → Request → Traced (List Shape)
  | 0 => builder.level fun _ => .ok []
  | depth + 1 => builder.level (builder.shapes depth)

/-- The description of the field at the top of every model. -/
def dataFieldDescription : String := "Synthetic data field"

/-- The field at the top of a model: it holds all selections on a type. -/
def dataField (builder : Builder) (type : Name) (selections : List Resolved) (root : Path) :
    Traced Field :=
  if (builder.schema.type? type).isNone then .ofDocument (.error (.unknownType type))
  else do
    let shapes ← builder.shapes (Resolved.depthAll selections)
      { fieldType := type
        responseName := "data"
        branches := [(selections, .always)]
        path := root
        inherited := [] }
    .ok
      { name := "data"
        aliasName := none
        arguments := []
        description := some dataFieldDescription
        deprecationReason := none
        type := .named (.object type)
        isOverride := false
        condition := .always
        shapes }

end Builder

end ResponseModel
