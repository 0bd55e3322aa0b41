import ResponseModel.Model
import ResponseModel.Proofs.Success

/-!
# Types that are marked as used

During a build the innermost type of every variable, field and argument is marked when its type is
resolved.  The marks of a build that succeeds are the innermost types of what it has built, in the
order of the steps: those of a field and its arguments, then those of its shapes
(`Builder.marks_dataField`), and for the whole model those of the fragments in the order in which
they are built, then those of the operations (`Linked.marks_models`).
-/

namespace ResponseModel

/-! ## Types in trees -/

mutual

/-- The types of a field, of its arguments, and of all fields below it. -/
def Field.types : Field → List ModelType
  | ⟨_, _, arguments, _, _, type, _, _, shapes⟩ =>
      type :: arguments.map Argument.type ++ typesOfShapes shapes

/-- The types in a list of shapes. -/
def typesOfShapes : List (ShapeOf Field) → List ModelType
  | [] => []
  | shape :: rest => typesOfShape shape ++ typesOfShapes rest

/-- The types in a shape. -/
def typesOfShape : ShapeOf Field → List ModelType
  | ⟨_, _, _, _, fields, _, _⟩ => typesOfFields fields

/-- The types in a list of fields. -/
def typesOfFields : List Field → List ModelType
  | [] => []
  | field :: rest => field.types ++ typesOfFields rest

end

theorem typesOfFields_eq (fields : List Field) :
    typesOfFields fields = fields.flatMap Field.types := by
  induction fields with
  | nil => rfl
  | cons field rest ih => rw [typesOfFields, List.flatMap_cons, ih]

/-- The types in the model of a fragment: of its variables, then of the fields of its shapes. -/
def FragmentModel.types (model : FragmentModel) : List ModelType :=
  model.vars.map Variable.type ++ typesOfShapes model.dataField.shapes

/-- The types in the model of an operation: of its variables, then of the fields of its shapes. -/
def OperationModel.types (model : OperationModel) : List ModelType :=
  model.vars.map Variable.type ++ typesOfShapes model.dataField.shapes

/-! ## Marks of sequences -/

namespace Traced

variable {α β : Type}

theorem marks_bind {first : Traced α} {next : α → Traced β} {a : α}
    (h : first.result = .ok a) : (first >>= next).marks = first.marks ++ (next a).marks := by
  rw [bind_ok_result next h]

theorem marks_mapType {schema : Schema} {type : TypeRef} {mapped : ModelType}
    (h : (mapType schema type).result = .ok mapped) :
    (mapType schema type).marks = [mapped.leaf] := by
  rw [mapType, result_mapType.1 h]

/-- A traversal marks what its elements mark, in order. -/
theorem marks_each {f : α → Traced β} (types : β → List ModelType) {xs : List α} {ys : List β}
    (hf : ∀ x y, (f x).result = .ok y → (f x).marks = (types y).map ModelType.leaf)
    (h : (each f xs).result = .ok ys) :
    (each f xs).marks = (ys.flatMap types).map ModelType.leaf := by
  induction xs generalizing ys with
  | nil =>
      obtain rfl := Except.ok.inj h
      rfl
  | cons x rest ih =>
      obtain ⟨y, hy, h⟩ := result_bind_eq_ok.1 h
      obtain ⟨others, hothers, h'⟩ := result_bind_eq_ok.1 h
      obtain rfl := Except.ok.inj h'
      rw [each, marks_bind hy, marks_bind hothers, hf x y hy, ih hothers, List.flatMap_cons,
        List.map_append]
      exact congrArg _ (List.append_nil _)

end Traced

/-! ## Marks of trees -/

namespace Builder

variable {builder : Builder} {below : Request → Traced (List Shape)}

theorem marks_argument {field : Name} {definition : FieldDefinition} {written : Name × Literal}
    {argument : Argument}
    (h : (builder.argument field definition written).result = .ok argument) :
    (builder.argument field definition written).marks = [argument.type.leaf] := by
  obtain ⟨name, literal⟩ := written
  rw [Builder.argument] at h ⊢
  split at h
  · nomatch h
  · obtain ⟨defaultValue, hdefault, h⟩ := Traced.result_bind_eq_ok.1 h
    obtain ⟨value, hvalue, h⟩ := Traced.result_bind_eq_ok.1 h
    obtain ⟨type, htype, h⟩ := Traced.result_bind_eq_ok.1 h
    obtain rfl := Except.ok.inj h
    rw [Traced.marks_bind hdefault, Traced.marks_bind hvalue, Traced.marks_bind htype,
      Traced.marks_mapType htype]
    rfl

section Level

variable (hbelow : ∀ request shapes, (below request).result = .ok shapes →
  (below request).marks = (typesOfShapes shapes).map ModelType.leaf)
include hbelow

/-- The type of a field is marked before those of its arguments, and these before what is below. -/
theorem marks_field {path : Path} {parents : List Shape} {entry : Name × Merged} {field : Field}
    (h : (builder.field below path parents entry).result = .ok field) :
    (builder.field below path parents entry).marks = field.types.map ModelType.leaf := by
  obtain ⟨responseName, merged⟩ := entry
  obtain ⟨type, htype, h⟩ := Traced.result_bind_eq_ok.1 h
  obtain ⟨arguments, harguments, h⟩ := Traced.result_bind_eq_ok.1 h
  obtain ⟨shapes, hshapes, h⟩ := Traced.result_bind_eq_ok.1 h
  obtain rfl := Except.ok.inj h
  have hmarks : (belowField below path parents responseName merged
      (merged.leastBy fun o => (builder.schema.possibleTypes o.parent).length).definition
      type).marks = (typesOfShapes shapes).map ModelType.leaf := by
    rw [belowField] at hshapes ⊢
    split at hshapes
    · next hcomposite =>
        rw [if_pos hcomposite]
        exact hbelow _ _ hshapes
    · next hleaf =>
        rw [if_neg hleaf]
        obtain rfl := Except.ok.inj hshapes
        rfl
  rw [Builder.field, Traced.marks_bind htype, Traced.marks_bind harguments,
    Traced.marks_bind hshapes, Traced.marks_mapType htype, hmarks,
    Traced.marks_each (fun argument : Argument => [argument.type])
      (fun _ _ hargument => marks_argument hargument) harguments]
  simp [Field.types, Traced.ok, ← List.map_eq_flatMap]

theorem marks_shape {request : Request} {earlier : List Shape} {typeSet : TypeSet} {shape : Shape}
    (h : (builder.shape below request earlier typeSet).result = .ok shape) :
    (builder.shape below request earlier typeSet).marks =
      (typesOfShape shape).map ModelType.leaf := by
  obtain ⟨collected, hcollected, h⟩ := Traced.result_bind_eq_ok.1 h
  obtain ⟨fields, hfields, h⟩ := Traced.result_bind_eq_ok.1 h
  obtain ⟨_, hemit, h⟩ := Traced.result_bind_eq_ok.1 h
  obtain rfl := Except.ok.inj h
  rw [Builder.shape, Traced.marks_bind hcollected, Traced.marks_bind hfields,
    Traced.marks_bind hemit,
    Traced.marks_each Field.types (fun _ _ hfield => marks_field hbelow hfield) hfields,
    typesOfShape, typesOfFields_eq]
  exact List.append_nil _

/-- The shapes of the type sets are marked one after the other. -/
theorem marks_shapesFrom {request : Request} {earlier all : List Shape} {typeSets : List TypeSet}
    (h : (builder.shapesFrom below request earlier typeSets).result = .ok all) :
    ∃ added, all = earlier ++ added ∧
      (builder.shapesFrom below request earlier typeSets).marks =
        (typesOfShapes added).map ModelType.leaf := by
  induction typeSets generalizing earlier with
  | nil =>
      obtain rfl := Except.ok.inj h
      exact ⟨[], (List.append_nil _).symm, rfl⟩
  | cons typeSet rest ih =>
      obtain ⟨shape, hshape, h⟩ := Traced.result_bind_eq_ok.1 h
      obtain ⟨added, rfl, hadded⟩ := ih h
      refine ⟨shape :: added, by simp, ?_⟩
      rw [shapesFrom, Traced.marks_bind hshape, marks_shape hbelow hshape, hadded, typesOfShapes,
        List.map_append]

theorem marks_level {request : Request} {shapes : List Shape}
    (h : (builder.level below request).result = .ok shapes) :
    (builder.level below request).marks = (typesOfShapes shapes).map ModelType.leaf := by
  obtain ⟨conditions, hconditions, h⟩ := Traced.result_bind_eq_ok.1 h
  obtain ⟨added, rfl, hadded⟩ := marks_shapesFrom hbelow h
  rw [level, Traced.marks_bind hconditions, hadded]
  rfl

end Level

/-- The shapes of a field are marked with everything below them. -/
theorem marks_shapes {depth : Nat} {request : Request} {shapes : List Shape}
    (h : (builder.shapes depth request).result = .ok shapes) :
    (builder.shapes depth request).marks = (typesOfShapes shapes).map ModelType.leaf := by
  induction depth generalizing request shapes with
  | zero =>
      refine marks_level (fun request shapes hshapes => ?_) h
      obtain rfl := Except.ok.inj hshapes
      rfl
  | succ depth ih => exact marks_level (fun request shapes hshapes => ih hshapes) h

/-- **The marks of a tree are the types below its top**, whose own type is not resolved. -/
theorem marks_dataField {type : Name} {selections : List Resolved} {root : Path} {data : Field}
    (h : (builder.dataField type selections root).result = .ok data) :
    (builder.dataField type selections root).marks =
      (typesOfShapes data.shapes).map ModelType.leaf := by
  unfold dataField at h ⊢
  split at h
  · nomatch h
  · next htype =>
      obtain ⟨shapes, hshapes, h⟩ := Traced.result_bind_eq_ok.1 h
      obtain rfl := Except.ok.inj h
      rw [if_neg htype, Traced.marks_bind hshapes, marks_shapes hshapes]
      exact List.append_nil _

end Builder

/-! ## Marks of models -/

namespace Linked

variable {schema : Schema} {linked : Linked} {built : List (Name × FragmentModel)}

theorem marks_inferredVariable {entry : Name × TypeRef} {var : Variable}
    (h : (inferredVariable schema entry).result = .ok var) :
    (inferredVariable schema entry).marks = [var.type.leaf] := by
  obtain ⟨type, htype, h⟩ := Traced.result_bind_eq_ok.1 h
  obtain rfl := Except.ok.inj h
  rw [inferredVariable, Traced.marks_bind htype, Traced.marks_mapType htype]
  rfl

theorem marks_declaredVariable {definition : VariableDefinition} {var : Variable}
    (h : (declaredVariable schema definition).result = .ok var) :
    (declaredVariable schema definition).marks = [var.type.leaf] := by
  obtain ⟨defaultValue, hdefault, h⟩ := Traced.result_bind_eq_ok.1 h
  obtain ⟨type, htype, h⟩ := Traced.result_bind_eq_ok.1 h
  obtain rfl := Except.ok.inj h
  rw [declaredVariable, Traced.marks_bind hdefault, Traced.marks_bind htype,
    Traced.marks_mapType htype]
  rfl

theorem marks_fragmentModel {fragment : LinkedFragment} {model : FragmentModel}
    (h : (fragmentModel schema built fragment).result = .ok model) :
    (fragmentModel schema built fragment).marks = model.types.map ModelType.leaf := by
  obtain ⟨inferred, hinferred, h⟩ := Traced.result_bind_eq_ok.1 h
  obtain ⟨vars, hvars, h⟩ := Traced.result_bind_eq_ok.1 h
  obtain ⟨data, hdata, h⟩ := Traced.result_bind_eq_ok.1 h
  obtain ⟨_, hemit, h⟩ := Traced.result_bind_eq_ok.1 h
  obtain rfl := Except.ok.inj h
  rw [fragmentModel, Traced.marks_bind hinferred, Traced.marks_bind hvars,
    Traced.marks_bind hdata, Traced.marks_bind hemit, Builder.marks_dataField hdata,
    Traced.marks_each (fun var : Variable => [var.type])
      (fun _ _ hvar => marks_inferredVariable hvar) hvars]
  simp [FragmentModel.types, Traced.ok, Traced.emit, Traced.ofDocument, ← List.map_eq_flatMap]

/-- Every fragment is marked when it is built. -/
theorem marks_fragmentModels {names : List Name} {all : List (Name × FragmentModel)}
    (h : (fragmentModels linked built names).result = .ok all) :
    ∃ added, all = built ++ added ∧ (fragmentModels linked built names).marks =
      (added.flatMap fun entry => entry.2.types).map ModelType.leaf := by
  induction names generalizing built with
  | nil =>
      obtain rfl := Except.ok.inj h
      exact ⟨[], (List.append_nil _).symm, rfl⟩
  | cons name rest ih =>
      rw [fragmentModels] at h ⊢
      cases hlookup : linked.fragments.lookup name with
      | none =>
          rw [hlookup] at h
          nomatch h
      | some fragment =>
          rw [hlookup] at h
          obtain ⟨model, hmodel, h⟩ := Traced.result_bind_eq_ok.1 h
          obtain ⟨added, rfl, hadded⟩ := ih h
          refine ⟨(name, model) :: added, by simp, ?_⟩
          simp only [Traced.marks_bind hmodel, marks_fragmentModel hmodel, hadded,
            List.flatMap_cons, List.map_append]

theorem marks_operationModel {operation : LinkedOperation} {model : OperationModel}
    (h : (operationModel linked built operation).result = .ok model) :
    (operationModel linked built operation).marks = model.types.map ModelType.leaf := by
  unfold operationModel at h ⊢
  split at h
  · nomatch h
  · split at h
    · nomatch h
    · obtain ⟨vars, hvars, h⟩ := Traced.result_bind_eq_ok.1 h
      obtain ⟨data, hdata, h⟩ := Traced.result_bind_eq_ok.1 h
      obtain ⟨reached, hreached, h⟩ := Traced.result_bind_eq_ok.1 h
      obtain ⟨_, hemit, h⟩ := Traced.result_bind_eq_ok.1 h
      obtain rfl := Except.ok.inj h
      rw [Traced.marks_bind hvars, Traced.marks_bind hdata, Traced.marks_bind hreached,
        Traced.marks_bind hemit, Builder.marks_dataField hdata,
        Traced.marks_each (fun var : Variable => [var.type])
          (fun _ _ hvar => marks_declaredVariable hvar) hvars]
      simp [OperationModel.types, Traced.ok, Traced.emit, Traced.ofDocument,
        ← List.map_eq_flatMap]

/-- The types in the models of the fragments and of the operations. -/
def typesOf (built : List (Name × FragmentModel)) (operations : List OperationModel) :
    List ModelType :=
  built.flatMap (fun entry => entry.2.types) ++ operations.flatMap OperationModel.types

/-- **The marks of a build are the types of what it has built.** -/
theorem marks_models {operations : List OperationModel}
    (h : linked.models.result = .ok (built, operations)) :
    linked.models.marks = (typesOf built operations).map ModelType.leaf := by
  obtain ⟨order, horder, h⟩ := Traced.result_bind_eq_ok.1 h
  obtain ⟨_, hbuilt, h⟩ := Traced.result_bind_eq_ok.1 h
  obtain ⟨_, hoperations, h⟩ := Traced.result_bind_eq_ok.1 h
  obtain ⟨rfl, rfl⟩ := Prod.mk.inj (Except.ok.inj h)
  obtain ⟨added, rfl, hadded⟩ := marks_fragmentModels hbuilt
  rw [models, Traced.marks_bind horder, Traced.marks_bind hbuilt, Traced.marks_bind hoperations,
    hadded, Traced.marks_each OperationModel.types (fun _ _ hmodel => marks_operationModel hmodel)
      hoperations, typesOf, List.map_append]
  simp [Traced.ok, Traced.ofDocument]

end Linked

end ResponseModel
