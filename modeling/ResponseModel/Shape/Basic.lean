import ResponseModel.Condition
import ResponseModel.ModelType
import ResponseModel.Path
import ResponseModel.Value

/-!
# Fields and shapes

The model of a response is a tree of fields and shapes by turns.  A field with sub-selections has
one shape for every type set under which its selections differ; a shape has the fields that are
selected for its concrete types.
-/

namespace ResponseModel

/-- An argument of a field, coerced to the type of its definition. -/
structure Argument where
  name : Name
  value : Value
  defaultValue : Option Value
  type : ModelType
  deriving Inhabited

/-- What a field holds for one type set, over a type of fields. -/
structure ShapeOf (F : Type) where
  /-- The path of the shape around the field. -/
  path : Path
  responseName : Name
  typeSet : TypeSet
  /-- The innermost type of the field. -/
  fieldType : Name
  fields : List F
  /-- The concrete types that the shape stands for. -/
  possibleTypes : List Name
  /-- The shapes that this one refines, by the path of their interface. -/
  implements : List Path
  deriving Inhabited

/-- A field of a response. -/
structure Field where
  name : Name
  aliasName : Option Name
  arguments : List Argument
  description : Option String
  deprecationReason : Option String
  type : ModelType
  /-- Whether a shape that the surrounding shape refines has the field too. -/
  isOverride : Bool
  condition : Condition
  /-- The shapes, the base shape first; there are none for scalars and enums. -/
  shapes : List (ShapeOf Field)
  deriving Inhabited

/-- The fields of a response for one type set. -/
abbrev Shape := ShapeOf Field

namespace Field

/-- The key of the field in responses. -/
def responseName (field : Field) : Name := field.aliasName.getD field.name

/-- The shape that is not narrowed. -/
def baseShape? (field : Field) : Option Shape := field.shapes.find? (·.typeSet.size == 1)

/-- The shape of a type set. -/
def shape? (field : Field) (typeSet : TypeSet) : Option Shape :=
  field.shapes.find? (·.typeSet == typeSet)

/-- The shape with the larger type set, the second one if they are equally large. -/
def moreSpecific (best : Option Shape) (shape : Shape) : Option Shape :=
  match best with
  | none => some shape
  | some old => if shape.typeSet.size < old.typeSet.size then some old else some shape

/-- The most specific shape that stands for a concrete type. -/
def concreteShape? (field : Field) (concrete : Name) : Option Shape :=
  (field.shapes.filter fun shape => concrete ∈ shape.possibleTypes).foldl moreSpecific none

end Field

namespace ShapeOf

/-- The address of the shape. -/
def fullPath {F : Type} (shape : ShapeOf F) : Path :=
  shape.path.append ⟨shape.typeSet, shape.fieldType, shape.responseName⟩

/-- The field of a response name. -/
def field? (shape : Shape) (responseName : Name) : Option Field :=
  shape.fields.find? (·.responseName == responseName)

end ShapeOf

end ResponseModel
