import ResponseModel.Proofs.FieldTrees
import ResponseModel.Proofs.ModelPaths

/-!
# More specific shapes extend less specific ones

The shapes of one field differ in their type sets, and a shape with more conditions on the type is
the more specific one: it stands for no other concrete types than a shape with fewer of them, and
whatever is selected there is selected here.  So the test that decides what a shape refines never
turns down a shape of the same field with a smaller type set, and every shape refines the base.
Main statement: `graded_of_build`.
-/

namespace ResponseModel

/-- The shape extends the other one, which stands at the address: it stands for no other concrete
types and has all its fields.  It passes the test for refining it, as far as the test looks at what
was collected for the shape, and it implements the address. -/
structure ShapeOf.ExtendsAt (shape other : Shape) (address : Path) : Prop where
  possibleTypes : ∀ concrete ∈ shape.possibleTypes, concrete ∈ other.possibleTypes
  responseNames : ∀ name ∈ other.fields.map Field.responseName,
    name ∈ shape.fields.map Field.responseName
  accepted : ∀ collected : Collected,
    collected.fields.map Prod.fst = shape.fields.map Field.responseName →
      Builder.refines shape.possibleTypes collected other = true
  implements : address ∈ shape.implements

/-- Every shape of the field extends those with smaller type sets, and the base.  The shapes stand
at the addresses that `address` gives to their paths. -/
structure Field.Graded (field : Field) (address : Path → Path) : Prop where
  smaller : ∀ shape ∈ field.shapes, ∀ other ∈ field.shapes,
    other.typeSet.StrictSubset shape.typeSet →
      shape.ExtendsAt other (address other.fullPath)
  base : field.shapes ≠ [] → ∃ base ∈ field.shapes, field.baseShape? = some base ∧
    ∀ shape ∈ field.shapes, shape ≠ base → shape.ExtendsAt base (address base.fullPath)

theorem Field.graded_of_shapes_eq_nil {field : Field} (h : field.shapes = [])
    (address : Path → Path) : field.Graded address := by
  constructor <;> simp [h]

theorem Field.Graded.congr {field : Field} {address address' : Path → Path}
    (h : field.Graded address)
    (hsame : ∀ shape ∈ field.shapes, address shape.fullPath = address' shape.fullPath) :
    field.Graded address' := by
  constructor
  · intro shape hshape other hother hsub
    exact hsame other hother ▸ h.smaller shape hshape other hother hsub
  · intro hne
    obtain ⟨base, hbase, hfind, hall⟩ := h.base hne
    exact ⟨base, hbase, hfind, fun shape hshape hother =>
      hsame base hbase ▸ hall shape hshape hother⟩

namespace Builder

variable {builder : Builder} {request : Request}

theorem LevelFrom.extendsAt {Below : Request → List Shape → Prop} {conditions : List Name}
    {shapes : List Shape} (h : builder.LevelFrom Below request conditions shapes)
    {shape other : Shape} (hshape : shape ∈ shapes) (hother : other ∈ shapes)
    (hsub : other.typeSet.StrictSubset shape.typeSet) :
    shape.ExtendsAt other other.fullPath.toInterface := by
  have hpossible := h.possibleTypes_subset hother hsub hshape
  have hnames := h.responseNames_subset hother hsub hshape
  refine ⟨hpossible, hnames, fun collected hcollected => ?_, h.mem_implements hother hsub hshape⟩
  rw [refines_iff, hcollected]
  exact ⟨hpossible, hnames⟩

/-- The base has the smallest type set. -/
theorem LevelFrom.strictSubset_of_ne_base {Below : Request → List Shape → Prop}
    {conditions : List Name} {shapes : List Shape}
    (h : builder.LevelFrom Below request conditions shapes) {base shape : Shape}
    (hbase : base ∈ shapes) (hset : base.typeSet = .single request.fieldType)
    (hshape : shape ∈ shapes) (hne : shape ≠ base) :
    base.typeSet.StrictSubset shape.typeSet := by
  have hmem := h.mem_typeSets hshape
  apply TypeSet.strictSubset_of_ne (Schema.increasing_of_mem_typeSets (h.mem_typeSets hbase))
    (Schema.increasing_of_mem_typeSets hmem)
  · intro name hname
    rw [hset, TypeSet.mem_single] at hname
    exact hname ▸ Schema.fieldType_mem_of_mem_typeSets hmem
  · intro heq
    exact hne (List.inj_on_of_nodup_map h.nodup_typeSets hshape hbase heq.symm)

theorem Fills.graded {field : Field} (h : builder.Fills request field) :
    field.Graded Path.toInterface := by
  obtain ⟨conditions, hlevel⟩ := h.built.level
  constructor
  · intro shape hshape other hother hsub
    exact hlevel.extendsAt hshape hother hsub
  · intro _
    obtain ⟨base, others, hshapes, hset, -⟩ := hlevel.exists_base
    have hbase : base ∈ field.shapes := by
      rw [hshapes]
      exact List.mem_cons_self
    refine ⟨base, hbase, hlevel.baseShape?_eq_some hbase hset, fun shape hshape hne => ?_⟩
    exact hlevel.extendsAt hshape hbase (hlevel.strictSubset_of_ne_base hbase hset hshape hne)

end Builder

/-- **A more specific shape extends the less specific ones.**  Take two shapes of a field, in the
tree of an operation or a fragment, such that the type set of the first is a strict subset of that
of the second.  The possible types of the second shape are possible types of the first, and the
response names of the first are response names of the second.  Hence the second passes the test for
refining the first, and it implements the path of the first; in an operation that is the path in the
interface of the operation.  Every shape but the base extends the base in this way. -/
theorem graded_of_build {options : Options} {schema : Schema}
    {documents accompanying : List Document}
    {linked : Linked} {config : Config} {model : Model}
    (hlink : Linked.ofDocuments options schema documents accompanying = .ok linked)
    (hbuild : (linked.build config).result = .ok model) :
    (∀ operation ∈ model.operations, ∀ field ∈ operation.dataField.all,
      field.Graded (·.withRoot .operationInterface)) ∧
    ∀ fragment ∈ model.fragments, ∀ field ∈ fragment.dataField.all, field.Graded id := by
  obtain ⟨order, built, hparts⟩ := Linked.buildFrom_of_result hbuild
  have hgraded : ∀ data ∈ model.dataFields, ∀ field ∈ data.all,
      field.Graded Path.toInterface := by
    intro data hdata field hfield
    by_cases hshapes : field.shapes = []
    · exact Field.graded_of_shapes_eq_nil hshapes Path.toInterface
    · obtain ⟨builder, -, request, hfills⟩ :=
        Linked.exists_fills hlink hbuild hdata hfield hshapes
      exact hfills.graded
  constructor
  · intro operation hoperation field hfield
    have hdata : operation.dataField ∈ model.dataFields :=
      List.mem_append_left _ (List.mem_map_of_mem hoperation)
    refine (hgraded _ hdata field hfield).congr fun shape hshape => ?_
    obtain ⟨written, -, hresult⟩ := exists_of_forall₂_of_mem hparts.operations hoperation
    apply Path.toInterface_of_implementation
    exact ((hparts.placement_operation hresult).data.root_of_mem_allShapes
      (Field.mem_allShapes.2 ⟨field, hfield, hshape⟩)).2
  · intro fragment hfragment field hfield
    have hdata : fragment.dataField ∈ model.dataFields :=
      List.mem_append_right _ (List.mem_map_of_mem hfragment)
    refine (hgraded _ hdata field hfield).congr fun shape hshape => ?_
    apply Path.toInterface_of_fragment
    exact ((hparts.placed_of_mem_fragments hfragment).root_of_mem_allShapes
      (Field.mem_allShapes.2 ⟨field, hfield, hshape⟩)).2

theorem graded_of_build_pet : ∃ base noisy cat, Sample.pet.shapes = [base, noisy, cat] ∧
    base.typeSet.names = ["Pet"] ∧ noisy.typeSet.names = ["Noisy", "Pet"] ∧
    cat.typeSet.names = ["Cat", "Noisy", "Pet"] ∧
    noisy.typeSet.StrictSubset cat.typeSet ∧
    cat.ExtendsAt noisy (noisy.fullPath.withRoot .operationInterface) ∧
    Sample.pet.Graded (·.withRoot .operationInterface) := by
  have hsets : Sample.pet.shapes.map (fun shape => shape.typeSet.names) =
      [["Pet"], ["Noisy", "Pet"], ["Cat", "Noisy", "Pet"]] := by decide +kernel
  have hgraded := (graded_of_build Sample.ofDocuments_eq Sample.build_eq).1 Sample.operation
    Sample.operation_mem Sample.pet Sample.pet_mem
  obtain ⟨base, _, hshapes, hbase, hsets⟩ := List.map_eq_cons_iff.1 hsets
  obtain ⟨noisy, _, rfl, hnoisy, hsets⟩ := List.map_eq_cons_iff.1 hsets
  obtain ⟨cat, _, rfl, hcat, hsets⟩ := List.map_eq_cons_iff.1 hsets
  obtain rfl := List.map_eq_nil_iff.1 hsets
  have hsub : noisy.typeSet.StrictSubset cat.typeSet := by
    simp [TypeSet.StrictSubset, hnoisy, hcat]
  exact ⟨base, noisy, cat, hshapes, hbase, hnoisy, hcat, hsub,
    hgraded.smaller cat (by simp [hshapes]) noisy (by simp [hshapes]) hsub, hgraded⟩

end ResponseModel
