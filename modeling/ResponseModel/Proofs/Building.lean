import ResponseModel.Proofs.Collection
import ResponseModel.Shape.Build

/-!
# What a successful build has done

A build of the shapes of a field is a recursion over levels, bounded by the depth of the selection
sets.  This file says once what a successful build has done at a level, without the bound and
without the order of the steps:

* `Builder.FieldFrom`: a field comes from the merged occurrences of its response name;
* `Builder.ShapeFrom`: a shape comes from the fields collected for its type set, and refines the
  candidates that fit;
* `Builder.LevelFrom`: the shapes of a field are those of its type sets, each built after the
  earlier ones.

`Builder.Built` says that shapes were built for a request, and `Built.level` unfolds it by one
level; every later statement about trees goes through it.
-/

namespace ResponseModel

namespace Builder

variable {builder : Builder}

/-- The occurrence that gives a merged field its definition. -/
def narrowest (builder : Builder) (merged : Merged) : Occurrence :=
  merged.leastBy fun o => (builder.schema.possibleTypes o.parent).length

/-- What is asked for below the field of some merged occurrences. -/
def requestBelow (builder : Builder) (path : Path) (parents : List Shape)
    (entry : Name × Merged) : Request where
  fieldType := (builder.narrowest entry.2).definition.type.innerName
  responseName := entry.1
  branches := entry.2.occurrences.map fun o => (o.selections, o.condition)
  path := path
  inherited := parents.filterMap (·.field? entry.1)

/-- A field comes from the merged occurrences of its response name, in the shape at `path` that
refines `parents`. -/
structure FieldFrom (builder : Builder) (Below : Request → List Shape → Prop) (path : Path)
    (parents : List Shape) (entry : Name × Merged) (field : Field) : Prop where
  name : field.name = (builder.narrowest entry.2).node.name
  aliasName : field.aliasName = (builder.narrowest entry.2).node.aliasName
  type : builder.schema.modelType (builder.narrowest entry.2).definition.type = .ok field.type
  arguments : List.Forall₂ (fun written argument =>
      (builder.argument (builder.narrowest entry.2).node.name (builder.narrowest entry.2).definition
        written).result = .ok argument)
    (builder.narrowest entry.2).node.arguments field.arguments
  isOverride : field.isOverride = parents.any fun parent => (parent.field? entry.1).isSome
  condition : field.condition = Condition.any (entry.2.occurrences.map Occurrence.condition)
  shapes : field.type.leaf.isComposite = true →
    Below (builder.requestBelow path parents entry) field.shapes
  leaf : field.type.leaf.isComposite = false → field.shapes = []

/-- The candidates that a shape refines. -/
def parents (builder : Builder) (request : Request) (earlier : List Shape) (shape : Shape)
    (collected : Collected) : List Shape :=
  refined shape.possibleTypes collected []
    (builder.candidates request earlier shape.typeSet collected.fragments)

/-- A shape comes from the fields collected for its type set, after the earlier shapes of the
field. -/
structure ShapeFrom (builder : Builder) (Below : Request → List Shape → Prop) (request : Request)
    (earlier : List Shape) (collected : Collected) (shape : Shape) : Prop where
  path : shape.path = request.path
  responseName : shape.responseName = request.responseName
  fieldType : shape.fieldType = request.fieldType
  possibleTypes : shape.possibleTypes = builder.schema.commonTypes shape.typeSet.names
  collects : collect (builder.schema.applies shape.typeSet shape.possibleTypes)
    request.branches = .ok collected
  implements : shape.implements =
    (builder.parents request earlier shape collected).map (·.fullPath.toInterface)
  fields : List.Forall₂
    (builder.FieldFrom Below shape.fullPath (builder.parents request earlier shape collected))
    collected.fields shape.fields

/-- The shapes of a field are those of its type sets, each built after the earlier ones. -/
structure LevelFrom (builder : Builder) (Below : Request → List Shape → Prop) (request : Request)
    (conditions : List Name) (shapes : List Shape) : Prop where
  conditionsOf : branchConditions request.branches = .ok conditions
  typeSets : shapes.map ShapeOf.typeSet = builder.schema.typeSets request.fieldType conditions
  shape : ∀ earlier shape later, shapes = earlier ++ shape :: later →
    ∃ collected, builder.ShapeFrom Below request earlier collected shape

/-- Every shape of a field was built after those before it. -/
theorem LevelFrom.exists_shapeFrom {Below : Request → List Shape → Prop} {request : Request}
    {conditions : List Name} {shapes : List Shape}
    (h : builder.LevelFrom Below request conditions shapes) {shape : Shape}
    (hshape : shape ∈ shapes) :
    ∃ earlier later collected, shapes = earlier ++ shape :: later ∧
      builder.ShapeFrom Below request earlier collected shape := by
  obtain ⟨earlier, later, hsplit⟩ := List.append_of_mem hshape
  obtain ⟨collected, hfrom⟩ := h.shape earlier shape later hsplit
  exact ⟨earlier, later, collected, hsplit, hfrom⟩

/-! ## One level -/

section Level

variable {below : Request → Traced (List Shape)}

theorem fieldFrom_of_result {path : Path} {parents : List Shape} {entry : Name × Merged}
    {field : Field} (h : (builder.field below path parents entry).result = .ok field) :
    builder.FieldFrom (fun r s => (below r).result = .ok s) path parents entry field := by
  obtain ⟨responseName, merged⟩ := entry
  obtain ⟨type, htype, h⟩ := Traced.result_bind_eq_ok.1 h
  obtain ⟨arguments, harguments, h⟩ := Traced.result_bind_eq_ok.1 h
  obtain ⟨shapes, hshapes, h⟩ := Traced.result_bind_eq_ok.1 h
  obtain rfl := Except.ok.inj h
  rw [belowField] at hshapes
  exact
    { name := rfl
      aliasName := rfl
      type := Traced.result_mapType.1 htype
      arguments := Traced.result_each.1 harguments
      isOverride := rfl
      condition := rfl
      shapes := fun hcomposite => by rwa [if_pos hcomposite] at hshapes
      leaf := fun hleaf => by
        rw [if_neg (by rw [hleaf]; exact Bool.false_ne_true)] at hshapes
        exact (Except.ok.inj hshapes).symm }

theorem shapeFrom_of_result {request : Request} {earlier : List Shape} {typeSet : TypeSet}
    {shape : Shape} (h : (builder.shape below request earlier typeSet).result = .ok shape) :
    shape.typeSet = typeSet ∧ ∃ collected,
      builder.ShapeFrom (fun r s => (below r).result = .ok s) request earlier collected shape := by
  obtain ⟨collected, hcollected, h⟩ := Traced.result_bind_eq_ok.1 h
  obtain ⟨fields, hfields, h⟩ := Traced.result_bind_eq_ok.1 h
  obtain ⟨-, -, h⟩ := Traced.result_bind_eq_ok.1 h
  obtain rfl := Except.ok.inj h
  refine ⟨rfl, collected, rfl, rfl, rfl, rfl, Traced.result_ofDocument.1 hcollected, rfl, ?_⟩
  exact (Traced.result_each.1 hfields).imp fun entry field hfield => fieldFrom_of_result hfield

/-- Type sets are worked off in order: their shapes are added behind the earlier ones. -/
theorem shapeFrom_of_shapesFrom_result {request : Request} {earlier all : List Shape}
    {typeSets : List TypeSet}
    (h : (builder.shapesFrom below request earlier typeSets).result = .ok all) :
    ∃ added, all = earlier ++ added ∧ added.map ShapeOf.typeSet = typeSets ∧
      ∀ before shape after, added = before ++ shape :: after → ∃ collected,
        builder.ShapeFrom (fun r s => (below r).result = .ok s) request (earlier ++ before)
          collected shape := by
  induction typeSets generalizing earlier with
  | nil =>
      obtain rfl := Except.ok.inj h
      refine ⟨[], (List.append_nil _).symm, rfl, fun before shape after hsplit => ?_⟩
      simp at hsplit
  | cons typeSet rest ih =>
      obtain ⟨first, hfirst, h⟩ := Traced.result_bind_eq_ok.1 h
      obtain ⟨htypeSet, hfrom⟩ := shapeFrom_of_result hfirst
      obtain ⟨added, rfl, htypes, hadded⟩ := ih h
      refine ⟨first :: added, by simp, by rw [List.map_cons, htypeSet, htypes], ?_⟩
      intro before shape after hsplit
      cases before with
      | nil =>
          obtain ⟨rfl, rfl⟩ := List.cons.inj hsplit
          simpa using hfrom
      | cons head before =>
          obtain ⟨rfl, htail⟩ := List.cons.inj hsplit
          simpa using hadded before shape after htail

theorem levelFrom_of_result {request : Request} {shapes : List Shape}
    (h : (builder.level below request).result = .ok shapes) :
    ∃ conditions,
      builder.LevelFrom (fun r s => (below r).result = .ok s) request conditions shapes := by
  obtain ⟨conditions, hconditions, h⟩ := Traced.result_bind_eq_ok.1 h
  obtain ⟨added, rfl, htypes, hadded⟩ := shapeFrom_of_shapesFrom_result h
  exact ⟨conditions, Traced.result_ofDocument.1 hconditions, htypes, hadded⟩

end Level

/-! ## All levels -/

/-- The shapes were built for the request. -/
def Built (builder : Builder) (request : Request) (shapes : List Shape) : Prop :=
  ∃ depth, (∀ branch ∈ request.branches, Resolved.depthAll branch.1 ≤ depth) ∧
    (builder.shapes depth request).result = .ok shapes

theorem FieldFrom.mono {Below Below' : Request → List Shape → Prop} {path : Path}
    {parents : List Shape} {entry : Name × Merged} {field : Field}
    (h : builder.FieldFrom Below path parents entry field)
    (himp : ∀ shapes, Below (builder.requestBelow path parents entry) shapes →
      Below' (builder.requestBelow path parents entry) shapes) :
    builder.FieldFrom Below' path parents entry field :=
  { h with shapes := fun hcomposite => himp _ (h.shapes hcomposite) }

theorem depthAll_lt_of_collect {applies : Name → Bool} {branches : List Branch}
    {collected : Collected} {depth : Nat} (h : collect applies branches = .ok collected)
    (hdepth : ∀ branch ∈ branches, Resolved.depthAll branch.1 ≤ depth) :
    ∀ entry ∈ collected.fields, ∀ o ∈ entry.2.occurrences,
      Resolved.depthAll o.selections < depth := by
  obtain ⟨pieces, hpieces, rfl⟩ := collect_eq_ok.1 h
  intro entry hentry o ho
  exact depthAll_lt_of_mem_flattenBranches hpieces hdepth o
    ((groups_ofFlat pieces).mem_of_mem_occurrences hentry ho).1

theorem Built.level {request : Request} {shapes : List Shape}
    (h : builder.Built request shapes) :
    ∃ conditions, builder.LevelFrom builder.Built request conditions shapes := by
  obtain ⟨depth, hdepth, h⟩ := h
  obtain ⟨below, hbelow, h⟩ : ∃ below : Request → Traced (List Shape),
      (∀ r, r.branches ≠ [] → (∀ branch ∈ r.branches, Resolved.depthAll branch.1 < depth) →
        ∀ s, (below r).result = .ok s → builder.Built r s) ∧
      (builder.level below request).result = .ok shapes := by
    cases depth with
    | zero =>
        refine ⟨fun _ => .ok [], fun r hne hlt => ?_, h⟩
        obtain ⟨branch, hbranch⟩ := List.exists_mem_of_ne_nil _ hne
        exact absurd (hlt branch hbranch) (Nat.not_lt_zero _)
    | succ depth =>
        refine ⟨builder.shapes depth, fun r _ hlt s hs => ⟨depth, fun branch hbranch => ?_, hs⟩, h⟩
        exact Nat.le_of_lt_succ (hlt branch hbranch)
  obtain ⟨conditions, hlevel⟩ := levelFrom_of_result h
  refine ⟨conditions, hlevel.conditionsOf, hlevel.typeSets, fun earlier shape later hsplit => ?_⟩
  obtain ⟨collected, hshape⟩ := hlevel.shape earlier shape later hsplit
  refine ⟨collected, { hshape with fields := ?_ }⟩
  -- the occurrences of a collected field bound the depth of the request below it
  have hlt := depthAll_lt_of_collect hshape.collects hdepth
  refine List.forall₂_iff_zip.2 ⟨hshape.fields.length_eq, fun {entry field} hzip => ?_⟩
  have hentry : entry ∈ collected.fields := (List.of_mem_zip hzip).1
  refine ((List.forall₂_iff_zip.1 hshape.fields).2 hzip).mono fun s hs => ?_
  refine hbelow _ (by simp [requestBelow, Merged.occurrences]) ?_ s hs
  intro branch hbranch
  obtain ⟨o, ho, rfl⟩ := List.mem_map.1 hbranch
  exact hlt entry hentry o ho

end Builder

end ResponseModel
