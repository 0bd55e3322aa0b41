import ResponseModel.Proofs.Independence

/-!
# The paths of a model

A model is a forest: every operation and every fragment has a tree of its own, which stands at the
root for its kind and at its name (`Model.trees`, `Linked.BuildFrom.placed_of_mem_trees`).  The
names of fragments are different, and so are the roots of operations and of fragments; whether two
operations have the same name is up to the documents.  If they do not, a path identifies a shape
among all shapes of the model, and so does the interface of the path, under which other shapes
refine it.  Main statement: `fullPath_identifies_shape`.
-/

namespace ResponseModel

/-- A path can be told from its interface, if it is known not to be one itself. -/
theorem Path.toInterface_inj {path other : Path} (hpath : path.root ≠ .operationInterface)
    (hother : other.root ≠ .operationInterface) (h : path.toInterface = other.toInterface) :
    path = other := by
  obtain ⟨fileName, root, elements⟩ := path
  obtain ⟨fileName', root', elements'⟩ := other
  cases root <;> cases root' <;> simp_all [toInterface, withRoot]

/-! ## The trees of a model -/

namespace Model

/-- The trees of a model, with the paths that they stand at. -/
def trees (model : Model) : List (Path × Field) :=
  model.operations.map (fun operation =>
    (.atRoot operation.name .operationImplementation, operation.dataField))
  ++ model.fragments.map fun fragment => (.atRoot fragment.name .fragment, fragment.dataField)

/-- All shapes of a model. -/
def shapes (model : Model) : List Shape := model.dataFields.flatMap Field.allShapes

theorem shapes_eq_flatMap_trees (model : Model) :
    model.shapes = model.trees.flatMap fun tree => tree.2.allShapes := by
  simp [shapes, dataFields, trees, List.flatMap_map]

theorem root_ne_operationInterface {model : Model} {tree : Path × Field}
    (htree : tree ∈ model.trees) : tree.1.root ≠ .operationInterface := by
  rw [trees, List.mem_append, List.mem_map, List.mem_map] at htree
  rcases htree with ⟨operation, -, rfl⟩ | ⟨fragment, -, rfl⟩ <;> simp [Path.atRoot]

/-- The trees of a model stand apart, if the names of its operations are different and so are the
names of its fragments. -/
theorem pairwise_trees {model : Model}
    (hoperations : (model.operations.map OperationModel.name).Nodup)
    (hfragments : (model.fragments.map FragmentModel.name).Nodup) :
    model.trees.Pairwise fun tree other =>
      tree.1.fileName ≠ other.1.fileName ∨ tree.1.root ≠ other.1.root := by
  rw [trees, List.pairwise_append, List.pairwise_map, List.pairwise_map]
  refine ⟨(List.pairwise_map.1 hoperations).imp Or.inl,
    (List.pairwise_map.1 hfragments).imp Or.inl, ?_⟩
  intro tree htree other hother
  obtain ⟨operation, -, rfl⟩ := List.mem_map.1 htree
  obtain ⟨fragment, -, rfl⟩ := List.mem_map.1 hother
  exact .inr (by simp [Path.atRoot])

end Model

section Placed

variable {linked : Linked} {model : Model} {order : List Name}
  {built : List (Name × FragmentModel)} (hparts : linked.BuildFrom order built model)
include hparts

theorem Linked.BuildFrom.placed_of_mem_trees {tree : Path × Field} (htree : tree ∈ model.trees) :
    tree.2.Placed tree.1 := by
  rw [Model.trees, List.mem_append, List.mem_map, List.mem_map] at htree
  rcases htree with ⟨operation, hoperation, rfl⟩ | ⟨fragment, hfragment, rfl⟩
  · obtain ⟨written, -, hresult⟩ := exists_of_forall₂_of_mem hparts.operations hoperation
    exact (hparts.placement_operation hresult).data
  · exact hparts.placed_of_mem_fragments hfragment

theorem Linked.BuildFrom.root_of_mem_shapes {shape : Shape} (hshape : shape ∈ model.shapes) :
    shape.fullPath.root ≠ .operationInterface := by
  rw [Model.shapes_eq_flatMap_trees] at hshape
  obtain ⟨tree, htree, hshape⟩ := List.mem_flatMap.1 hshape
  rw [((hparts.placed_of_mem_trees htree).root_of_mem_allShapes hshape).2]
  exact Model.root_ne_operationInterface htree

end Placed

/-! ## Shapes and their paths -/

/-- **Paths identify shapes.**  The shapes at the top of a tree stand at the path with no steps,
below the root for an operation or a fragment and its name, and the shapes of the fields of a shape
stand at the path of that shape.  If the operations have different names, no two shapes of the model
have the same path, in whichever trees and however deep they are; nor have they the same
interface. -/
theorem fullPath_identifies_shape {options : Options} {schema : Schema}
    {documents accompanying : List Document}
    {linked : Linked} {config : Config} {model : Model}
    (hlink : Linked.ofDocuments options schema documents accompanying = .ok linked)
    (hbuild : (linked.build config).result = .ok model) :
    (∀ operation ∈ model.operations, ∀ shape ∈ operation.dataField.shapes,
      shape.path = .atRoot operation.name .operationImplementation) ∧
    (∀ fragment ∈ model.fragments, ∀ shape ∈ fragment.dataField.shapes,
      shape.path = .atRoot fragment.name .fragment) ∧
    (∀ shape ∈ model.shapes, ∀ field ∈ shape.fields, ∀ inner ∈ field.shapes,
      inner.path = shape.fullPath) ∧
    ((model.operations.map OperationModel.name).Nodup →
      (model.shapes.map ShapeOf.fullPath).Nodup ∧
      (model.shapes.map fun shape => shape.fullPath.toInterface).Nodup) := by
  have hfrom := Linked.linkedFrom hlink
  obtain ⟨order, built, hparts⟩ := Linked.buildFrom_of_result hbuild
  have hplaced : ∀ tree ∈ model.trees, tree.2.Placed tree.1 :=
    fun tree htree => hparts.placed_of_mem_trees htree
  refine ⟨fun operation hoperation shape hshape => ?_, fun fragment hfragment shape hshape => ?_,
    fun shape hshape field hfield inner hinner => ?_, fun hnames => ?_⟩
  · exact (hplaced _ (List.mem_append_left _ (List.mem_map_of_mem hoperation))).shape_path hshape
  · exact (hplaced _ (List.mem_append_right _ (List.mem_map_of_mem hfragment))).shape_path hshape
  · rw [Model.shapes_eq_flatMap_trees] at hshape
    obtain ⟨tree, htree, hshape⟩ := List.mem_flatMap.1 hshape
    exact (hplaced tree htree).path_eq_of_nested hshape hfield hinner
  · have hpaths : (model.shapes.map ShapeOf.fullPath).Nodup := by
      rw [Model.shapes_eq_flatMap_trees]
      exact Field.nodup_fullPaths_of_placed hplaced
        (Model.pairwise_trees hnames (hparts.nodup_fragment_names hfrom))
    refine ⟨hpaths, List.pairwise_map.2 ((List.pairwise_map.1 hpaths).imp_of_mem ?_)⟩
    intro shape other hshape hother hne heq
    exact hne (Path.toInterface_inj (hparts.root_of_mem_shapes hshape)
      (hparts.root_of_mem_shapes hother) heq)

/-- An operation and a fragment of one name, among others, do not share paths. -/
theorem fullPath_identifies_shape_kittens : ∃ linked model,
    Linked.ofDocuments .standard Sample.schema Kittens.among Kittens.accompanying = .ok linked ∧
    (linked.build ⟨[]⟩).result = .ok model ∧
    model.operations.map OperationModel.name = ["Kittens", "Loud"] ∧
    model.fragments.map FragmentModel.name = ["Sound", "Loud", "Family"] ∧
    (model.shapes.map ShapeOf.fullPath).Nodup ∧
    (model.shapes.map fun shape => shape.fullPath.toInterface).Nodup := by
  obtain ⟨linked, model, hlink, hbuild, hoperations, hfragments⟩ :
      ∃ linked model,
        Linked.ofDocuments .standard Sample.schema Kittens.among Kittens.accompanying = .ok linked ∧
        (linked.build ⟨[]⟩).result = .ok model ∧
        model.operations.map OperationModel.name = ["Kittens", "Loud"] ∧
        model.fragments.map FragmentModel.name = ["Sound", "Loud", "Family"] :=
    Linked.exists_of_built? (by decide +kernel)
  have hnames : (model.operations.map OperationModel.name).Nodup := by
    rw [hoperations]
    decide
  exact ⟨linked, model, hlink, hbuild, hoperations, hfragments,
    (fullPath_identifies_shape hlink hbuild).2.2.2 hnames⟩

end ResponseModel
