import ResponseModel.Shape.Collection
import ResponseModel.TypeSet

/-!
# Narrowing

The type sets of a field: each of its concrete types satisfies some of the type conditions below
the field, and the concrete types that satisfy the same ones share a shape.
-/

namespace ResponseModel

/-- The type conditions of several selection sets. -/
def branchConditions : List Branch → Except DocumentError (List Name)
  | [] => .ok []
  | (selections, _) :: rest => do
      let first ← Resolved.typeConditionsAll selections
      let others ← branchConditions rest
      .ok (first ++ others)

namespace Schema

/-- The conditions that some concrete type of a field does not satisfy. -/
def narrowing (schema : Schema) (fieldType : Name) (conditions : List Name) : List Name :=
  conditions.filter fun condition =>
    condition ≠ fieldType && !schema.covers condition (schema.possibleTypes fieldType)

/-- The type set of a concrete type: the type of the field and the conditions it satisfies. -/
def typeSetOf (schema : Schema) (fieldType : Name) (narrowing : List Name) (concrete : Name) :
    TypeSet :=
  (narrowing.filter fun condition => concrete ∈ schema.possibleTypes condition).foldl
    TypeSet.insert (.single fieldType)

/-- The type sets of a field under the given conditions: the base first, then by size and names. -/
def typeSets (schema : Schema) (fieldType : Name) (conditions : List Name) : List TypeSet :=
  let narrowing := schema.narrowing fieldType conditions
  TypeSet.inOrder
    (.single fieldType
      :: (schema.possibleTypes fieldType).map (schema.typeSetOf fieldType narrowing))

/-- Whether a fragment on a type applies to all concrete types of a shape. -/
def applies (schema : Schema) (typeSet : TypeSet) (possibleTypes : List Name) (type : Name) :
    Bool :=
  typeSet.contains type || (!possibleTypes.isEmpty && schema.covers type possibleTypes)

end Schema

end ResponseModel
