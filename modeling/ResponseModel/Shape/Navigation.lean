import ResponseModel.Shape.Basic

/-!
# Navigation

Walks through the tree of fields and shapes.  A walk goes by turns from a field to one of its
shapes and from a shape to one of its fields; `Place.walk` composes with concatenation of steps
(`walk_append`).
-/

namespace ResponseModel

/-- A place in the tree of a response. -/
inductive Place where
  | field (here : Field)
  | shape (here : Shape)

namespace Place

/-- A step from one place to the next. -/
inductive Step where
  /-- From a field to its base shape. -/
  | base
  /-- From a field to the most specific shape for a concrete type. -/
  | concrete (type : Name)
  /-- From a field to the shape of a type set. -/
  | typeSet (types : TypeSet)
  /-- From a shape to the field of a response name. -/
  | field (responseName : Name)
  deriving DecidableEq

/-- Takes a step, if it leads anywhere. -/
def step? : Place → Step → Option Place
  | .field here, .base => here.baseShape?.map .shape
  | .field here, .concrete type => (here.concreteShape? type).map .shape
  | .field here, .typeSet types => (here.shape? types).map .shape
  | .shape here, .field responseName => (here.field? responseName).map .field
  | _, _ => none

/-- Takes steps in order. -/
def walk (place : Place) (steps : List Step) : Option Place := steps.foldlM step? place

@[simp] theorem walk_nil (place : Place) : place.walk [] = some place := rfl

@[simp] theorem walk_cons (place : Place) (step : Step) (rest : List Step) :
    place.walk (step :: rest) = (place.step? step).bind (·.walk rest) := rfl

theorem walk_append (place : Place) (first second : List Step) :
    place.walk (first ++ second) = (place.walk first).bind (·.walk second) := by
  induction first generalizing place with
  | nil => rfl
  | cons step rest ih =>
      cases h : place.step? step with
      | none => simp [h]
      | some next => simp [h, ih]

end Place

end ResponseModel
