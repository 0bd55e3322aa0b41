import ResponseModel.Proofs.ModelTrees

/-!
# Shapes and the fragments that they spread

The shapes of a field and those of a fragment that is spread in it are told apart by different type
conditions: the fragment knows only those among its own selections.  So the shape of a concrete type
in the field satisfies every condition of the shape of that type in the fragment, and stands for
some of its types only (`Making.Concrete.subset`).  Main statement:
`implements_spreadFragments`, the shape of a concrete type implements the shape of that type of
every fragment that was merged into it.
-/

namespace ResponseModel

namespace Linked

/-! ## The shapes of one concrete type in two fields -/

namespace Making

/-- The shape is that of a concrete type, in a field with the given type conditions. -/
structure Concrete (schema : Schema) (making : Making) (concrete : Name) (conditions : List Name) :
    Prop where
  valid : making.Valid schema
  level : (builderAfter schema making.before).LevelFrom (builderAfter schema making.before).Built
    making.request conditions making.field.shapes
  possible : schema.Possible making.request.fieldType concrete
  typeSet : making.shape.typeSet = schema.typeSetOf making.request.fieldType
    (schema.narrowing making.request.fieldType conditions) concrete
  concreteShape : making.field.concreteShape? concrete = some making.shape
  stands : concrete ∈ making.shape.possibleTypes

theorem exists_concrete {schema : Schema} {before : List (Name × FragmentModel)} {request : Request}
    {field : Field} (hfills : (builderAfter schema before).Fills request field) {concrete : Name}
    (hc : schema.Possible request.fieldType concrete) :
    ∃ earlier shape later collected conditions,
      Concrete schema ⟨before, request, field, earlier, shape, later, collected⟩ concrete
        conditions := by
  obtain ⟨conditions, hlevel⟩ := hfills.built.level
  obtain ⟨earlier, shape, later, hsplit, hset, hconcrete, hmem, -⟩ := hlevel.exists_concrete hc
  obtain ⟨collected, hfrom⟩ := hlevel.shape earlier shape later hsplit
  exact ⟨earlier, shape, later, collected, conditions, ⟨hfills, hsplit, hfrom⟩, hlevel, hc, hset,
    hconcrete, hmem⟩

namespace Concrete

variable {schema : Schema} {making other : Making} {concrete : Name}
  {conditions conditions' : List Name}

/-- What a concrete type satisfies, of the type of the field and the conditions below it, all
types of its shape satisfy. -/
theorem possible_of_possible (h : making.Concrete schema concrete conditions) {type : Name}
    (htype : type = making.request.fieldType ∨ type ∈ conditions)
    (hpossible : schema.Possible type concrete) :
    ∀ name ∈ making.shape.possibleTypes, schema.Possible type name := by
  intro name hname
  rcases htype with rfl | hcondition
  · have hmem := Schema.fieldType_mem_of_mem_typeSets (h.level.mem_typeSets h.valid.mem_shapes)
    exact (h.level.mem_possibleTypes h.valid.mem_shapes).1 hname _ hmem
  · have happlies := (Schema.applies_typeSetOf_iff h.possible hcondition).2 hpossible
    rw [← h.typeSet] at happlies
    rw [h.valid.shapeFrom.possibleTypes] at hname
    exact Schema.possible_of_applies happlies name hname

section Two

variable (h : making.Concrete schema concrete conditions)
  (h' : other.Concrete schema concrete conditions')
  (htype : other.request.fieldType = making.request.fieldType ∨
    other.request.fieldType ∈ conditions)
  (hconditions : conditions' ⊆ conditions)
include h h' htype hconditions

/-- Where one field has all the type conditions of another, and the type of that field is its own or
one of them, the shape of a concrete type stands for no type that it does not stand for in the other
field. -/
theorem subset : ∀ name ∈ making.shape.possibleTypes, name ∈ other.shape.possibleTypes := by
  intro name hname
  refine (h'.level.mem_possibleTypes h'.valid.mem_shapes).2 fun type hmem => ?_
  have hpossible : schema.Possible type concrete := by
    rw [h'.typeSet] at hmem
    exact Schema.possible_of_mem_typeSetOf h'.possible hmem
  have hfrom : type = making.request.fieldType ∨ type ∈ conditions := by
    have hset := h'.level.mem_typeSets h'.valid.mem_shapes
    rcases Schema.mem_narrowing_of_mem_typeSets hset hmem with rfl | hnarrowing
    · exact htype
    · exact .inr (hconditions (Schema.mem_narrowing.1 hnarrowing).1)
  exact h.possible_of_possible hfrom hpossible name hname

/-- If the shape of the type in the other field is a candidate there, and all that was collected for
it is collected wherever more applies, then it is refined. -/
theorem mem_implements (hcandidate : other.shape ∈ making.candidates schema)
    (hincludes : (∀ type,
      schema.applies other.shape.typeSet other.shape.possibleTypes type = true →
      schema.applies making.shape.typeSet making.shape.possibleTypes type = true) →
      making.collected.Includes other.collected) :
    other.shape.fullPath.toInterface ∈ making.shape.implements := by
  have hsub := h.subset h' htype hconditions
  have happlies :=
    h'.valid.shapeFrom.applies_of_subset (List.ne_nil_of_mem h.stands) hsub
  refine h.valid.shapeFrom.mem_implements hcandidate hsub ?_
  rw [h'.valid.shapeFrom.map_responseName]
  exact (hincludes happlies).mem_names

end Two

end Concrete

end Making

/-! ## Fragments merged into a shape -/

/-- The shape of a concrete type refines the shape of that type of every fragment merged into
it. -/
theorem exists_implemented {schema : Schema} {before : List (Name × FragmentModel)}
    {request : Request} {field : Field} {concrete : Name}
    (hfills : (builderAfter schema before).Fills request field)
    (hspreads : ∀ selections ∈ request.branches.map Prod.fst, SpreadsBuilt schema before selections)
    (hc : schema.Possible request.fieldType concrete) :
    ∃ shape collected, field.concreteShape? concrete = some shape ∧
      collect (schema.applies shape.typeSet shape.possibleTypes) request.branches =
        .ok collected ∧
      ∀ name ∈ collected.fragments, ∃ model, before.lookup name = some model ∧
        ∃ target ∈ model.dataField.shapes, model.dataField.concreteShape? concrete = some target ∧
          target.fullPath.toInterface ∈ shape.implements := by
  obtain ⟨earlier, shape, later, collected, conditions, h⟩ := Making.exists_concrete hfills hc
  have hfrom := h.valid.shapeFrom
  refine ⟨shape, collected, h.concreteShape, hfrom.collects, fun name hname => ?_⟩
  -- the spread that was entered, and the fragment built for it
  obtain ⟨type, below, hmerges⟩ := merges_of_mem_fragments hfrom.collects hname
  obtain ⟨selections, hselections, directives, hnode⟩ := hmerges.spread
  obtain ⟨model, others, hlookup, -, hdata⟩ :=
    hspreads selections hselections name directives type below hnode
  obtain ⟨htype, inner, hinner, hinnerSub⟩ := hmerges.conditions conditions h.level.conditionsOf
  have hc' : schema.Possible type concrete := by
    have hentered := hmerges.entered
    rw [hfrom.possibleTypes] at hentered
    exact Schema.possible_of_applies hentered concrete (hfrom.possibleTypes ▸ h.stands)
  obtain ⟨earlier', target, later', collected', conditions', h'⟩ :=
    Making.exists_concrete hdata.fills hc'
  have hconditions : conditions' ⊆ conditions := by
    obtain ⟨first, rest, hfirst, hrest, rfl⟩ := except_append_eq_ok.1 h'.level.conditionsOf
    obtain rfl := Except.ok.inj (hfirst.symm.trans hinner)
    obtain rfl := Except.ok.inj hrest
    rw [List.append_nil]
    exact hinnerSub
  have htarget : target ∈ model.dataField.shapes := h'.valid.mem_shapes
  refine ⟨model, hlookup, target, htarget, h'.concreteShape, ?_⟩
  refine h.mem_implements h' (.inr htype) hconditions (Builder.mem_candidates.2 (.inr (.inl ?_))) ?_
  · exact ⟨name, hname, _, lookup_fragmentShapes.2 ⟨model, hlookup, rfl⟩, htarget⟩
  · exact fun happlies => hmerges.includes _ _ happlies h'.valid.shapeFrom.collects

end Linked

/-- **A shape implements the matching shape of every fragment that it spreads.**  Take any tree of a
model whose fragments do not spread themselves.  At every field of the tree some selection sets are
merged.  If the field has shapes, then for every concrete type that is possible for it, what is
collected from these selection sets for the shape of that type merges only fragments of the model
that have a shape of the same concrete type, and the shape implements that one. -/
theorem implements_spreadFragments {options : Options} {schema : Schema}
    {documents accompanying : List Document}
    {linked : Linked} {config : Config} {model : Model}
    (hlink : Linked.ofDocuments options schema documents accompanying = .ok linked)
    (hbuild : (linked.build config).result = .ok model) (hacyclic : linked.library.Acyclic)
    {selections : List Resolved} {data : Field} (htop : linked.IsTop model selections data) :
    (∀ field ∈ data.all, ∃ branches, Gathers schema selections data branches field) ∧
    ∀ branches field, Gathers schema selections data branches field → field.shapes ≠ [] →
      ∀ concrete, schema.Possible field.type.leafName concrete →
        ∃ shape collected, field.concreteShape? concrete = some shape ∧
          collect (schema.applies shape.typeSet shape.possibleTypes) branches = .ok collected ∧
          ∀ name ∈ collected.fragments, ∃ fragment ∈ model.fragments, fragment.name = name ∧
            ∃ target, fragment.dataField.concreteShape? concrete = some target ∧
              target.fullPath ∈ shape.implements := by
  obtain ⟨before, root, type, htree⟩ := Linked.exists_treeFrom hlink hbuild hacyclic htop
  refine ⟨htree.dataFrom.exists_gathers, fun branches field hgathers hshapes concrete hc => ?_⟩
  obtain ⟨-, hnone | ⟨request, rfl, hfills, -⟩⟩ := hgathers.exists_request
    (Q := fun _ => True) htree.dataFrom trivial fun _ _ _ _ _ _ _ _ _ _ _ _ _ => trivial
  · exact absurd hnone hshapes
  rw [← hfills.fieldType] at hc
  obtain ⟨shape, collected, hconcrete, hcollect, himplements⟩ :=
    Linked.exists_implemented hfills
      (fun part hpart => htree.spreads.of_subset (hgathers.nodesAll_subset part hpart)) hc
  refine ⟨shape, collected, hconcrete, hcollect, fun name hname => ?_⟩
  obtain ⟨fragment, hlookup, target, htarget, hconcrete', hpath⟩ := himplements name hname
  have hentry := mem_of_lookup_eq_some hlookup
  obtain ⟨hmem, hfragment⟩ := htree.fragments _ hentry
  refine ⟨fragment, hmem, hfragment, target, hconcrete', ?_⟩
  have hplaced := htree.placement.fragments _ hentry
  have hroot : target.fullPath.root = .fragment := by
    rw [hplaced.fullPath_eq htarget]
    rfl
  rwa [Path.toInterface_of_fragment hroot] at hpath

namespace Sample

theorem collects :
    (collect (schema.applies (data.shapes.head shapes_ne_nil).typeSet
      (data.shapes.head shapes_ne_nil).possibleTypes) [(selections, .always)]).toOption.isSome =
        true := by
  decide +kernel

/-- What the operation selects, by response name. -/
def collected : Collected :=
  (collect (schema.applies (data.shapes.head shapes_ne_nil).typeSet
    (data.shapes.head shapes_ne_nil).possibleTypes) [(selections, .always)]).toOption.get collects

theorem collected_ne_nil : collected.fields ≠ [] := List.ne_nil_of_length_pos (by decide +kernel)

/-- The selection sets that are merged at the pet. -/
def petBranches : List Branch :=
  (collected.fields.head collected_ne_nil).2.occurrences.map fun o => (o.selections, o.condition)

theorem gathers_pet : Gathers schema selections data petBranches pet :=
  .step .top (List.head_mem shapes_ne_nil) (except_eq_ok_get collects)
    (List.head_mem collected_ne_nil) (List.head_mem fields_ne_nil) (by decide +kernel)

end Sample

theorem implements_spreadFragments_catMate :
    Sample.linked.library.Acyclic ∧ Sample.pet.shapes ≠ [] ∧
    Sample.schema.Possible Sample.pet.type.leafName "Cat" ∧
    ∃ shape collected, Sample.pet.concreteShape? "Cat" = some shape ∧
      collect (Sample.schema.applies shape.typeSet shape.possibleTypes) Sample.petBranches =
        .ok collected ∧ collected.fragments = ["CatMate"] ∧
      ∃ fragment ∈ Sample.model.fragments, fragment.name = "CatMate" ∧
        ∃ target, fragment.dataField.concreteShape? "Cat" = some target ∧
          target.fullPath ∈ shape.implements := by
  have hshapes : Sample.pet.shapes ≠ [] := List.ne_nil_of_length_pos (by decide +kernel)
  have hcat : Sample.schema.Possible Sample.pet.type.leafName "Cat" := by decide +kernel
  obtain ⟨shape, collected, hconcrete, hcollect, himplements⟩ :=
    (implements_spreadFragments Sample.ofDocuments_eq Sample.build_eq Sample.acyclic
      Sample.isTop).2 _ _ Sample.gathers_pet hshapes "Cat" hcat
  have hfragments : collected.fragments = ["CatMate"] := by
    have hcomputed : ((Sample.pet.concreteShape? "Cat").bind fun shape =>
        (collect (Sample.schema.applies shape.typeSet shape.possibleTypes)
          Sample.petBranches).toOption.map Collected.fragments) = some ["CatMate"] := by
      decide +kernel
    rw [hconcrete, Option.bind_some, hcollect] at hcomputed
    exact Option.some.inj hcomputed
  exact ⟨Sample.acyclic, hshapes, hcat, shape, collected, hconcrete, hcollect, hfragments,
    himplements "CatMate" (hfragments ▸ List.mem_singleton_self _)⟩

end ResponseModel
