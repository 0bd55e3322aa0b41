import ResponseModel.Proofs.Models
import ResponseModel.Proofs.TypeSets

/-!
# The shape of a concrete type

The shapes of a field resolve every concrete type to one most specific shape.  Of the shapes that
stand for a concrete type, the one with the type set of that type is the largest, and all others
are proper parts of it (`LevelFrom.exists_concrete`): a shape stands for a type only if the type
satisfies all its conditions, and then they are among the conditions of the type.  Main statement:
`concreteShape?_mostSpecific`, for every field of every tree of a model.
-/

namespace ResponseModel

theorem mem_of_mem_others {shapes before after : List Shape} {shape other : Shape}
    (hsplit : shapes = before ++ shape :: after) (h : other ∈ before ++ after) :
    other ∈ shapes := by
  rw [hsplit]
  rcases List.mem_append.1 h with h | h
  · exact List.mem_append_left _ h
  · exact List.mem_append_right _ (List.mem_cons_of_mem _ h)

/-! ## Picking the largest -/

namespace Field

theorem foldl_moreSpecific_of_lt {shapes : List Shape} {best : Shape}
    (h : ∀ other ∈ shapes, other.typeSet.size < best.typeSet.size) :
    shapes.foldl moreSpecific (some best) = some best := by
  induction shapes with
  | nil => rfl
  | cons shape rest ih =>
      rw [List.foldl_cons, moreSpecific, if_pos (h shape List.mem_cons_self)]
      exact ih fun other hother => h other (List.mem_cons_of_mem _ hother)

/-- A shape that is larger than all others is the most specific one. -/
theorem foldl_moreSpecific {before after : List Shape} {shape : Shape} {start : Option Shape}
    (hstart : ∀ best ∈ start, best.typeSet.size < shape.typeSet.size)
    (h : ∀ other ∈ before ++ after, other.typeSet.size < shape.typeSet.size) :
    (before ++ shape :: after).foldl moreSpecific start = some shape := by
  induction before generalizing start with
  | nil =>
      have hshape : moreSpecific start shape = some shape := by
        cases start with
        | none => rfl
        | some best => rw [moreSpecific, if_neg (Nat.lt_asymm (hstart best rfl))]
      rw [List.nil_append, List.foldl_cons, hshape]
      exact foldl_moreSpecific_of_lt h
  | cons first rest ih =>
      rw [List.cons_append, List.foldl_cons]
      refine ih (fun best hbest => ?_) fun other hother => h other (List.mem_cons_of_mem _ hother)
      have hfirst := h first List.mem_cons_self
      cases start with
      | none =>
          obtain rfl := Option.some.inj hbest
          exact hfirst
      | some old =>
          rw [moreSpecific] at hbest
          split at hbest
          · obtain rfl := Option.some.inj hbest
            exact hstart old rfl
          · obtain rfl := Option.some.inj hbest
            exact hfirst

theorem concreteShape?_eq_some {field : Field} {concrete : Name} {before after : List Shape}
    {shape : Shape} (hsplit : field.shapes = before ++ shape :: after)
    (hmem : concrete ∈ shape.possibleTypes)
    (h : ∀ other ∈ before ++ after, concrete ∈ other.possibleTypes →
      other.typeSet.size < shape.typeSet.size) :
    field.concreteShape? concrete = some shape := by
  unfold concreteShape?
  rw [hsplit, List.filter_append, List.filter_cons_of_pos (by simpa using hmem)]
  refine foldl_moreSpecific (fun best hbest => absurd hbest (by simp)) fun other hother => ?_
  rw [← List.filter_append, List.mem_filter, decide_eq_true_eq] at hother
  exact h other hother.1 hother.2

theorem concreteShape?_eq_none {field : Field} {concrete : Name}
    (h : ∀ shape ∈ field.shapes, concrete ∉ shape.possibleTypes) :
    field.concreteShape? concrete = none := by
  unfold concreteShape?
  rw [List.filter_eq_nil_iff.2 fun shape hshape => by simpa using h shape hshape]
  rfl

end Field

/-! ## The shapes of one field -/

namespace Builder

variable {builder : Builder} {Below : Request → List Shape → Prop} {request : Request}
  {conditions : List Name} {shapes : List Shape}

theorem LevelFrom.mem_typeSets (h : builder.LevelFrom Below request conditions shapes)
    {shape : Shape} (hshape : shape ∈ shapes) :
    shape.typeSet ∈ builder.schema.typeSets request.fieldType conditions := by
  rw [← h.typeSets]
  exact List.mem_map_of_mem hshape

theorem LevelFrom.nodup_typeSets (h : builder.LevelFrom Below request conditions shapes) :
    (shapes.map ShapeOf.typeSet).Nodup := by
  rw [h.typeSets]
  exact Schema.nodup_typeSets

theorem LevelFrom.exists_typeSet (h : builder.LevelFrom Below request conditions shapes)
    {typeSet : TypeSet} (hset : typeSet ∈ builder.schema.typeSets request.fieldType conditions) :
    ∃ before shape after, shapes = before ++ shape :: after ∧ shape.typeSet = typeSet := by
  rw [← h.typeSets, List.mem_map] at hset
  obtain ⟨shape, hshape, rfl⟩ := hset
  obtain ⟨before, after, hsplit⟩ := List.append_of_mem hshape
  exact ⟨before, shape, after, hsplit, rfl⟩

/-- A shape stands for the concrete types that satisfy every member of its type set. -/
theorem LevelFrom.mem_possibleTypes (h : builder.LevelFrom Below request conditions shapes)
    {shape : Shape} (hshape : shape ∈ shapes) {concrete : Name} :
    concrete ∈ shape.possibleTypes ↔
      ∀ type ∈ shape.typeSet.names, builder.schema.Possible type concrete := by
  obtain ⟨earlier, later, collected, -, hfrom⟩ := h.exists_shapeFrom hshape
  have hfield := Schema.fieldType_mem_of_mem_typeSets (h.mem_typeSets hshape)
  rw [hfrom.possibleTypes, Schema.mem_commonTypes (List.ne_nil_of_mem hfield)]

theorem LevelFrom.typeSet_ne (h : builder.LevelFrom Below request conditions shapes)
    {before after : List Shape} {shape other : Shape} (hsplit : shapes = before ++ shape :: after)
    (hother : other ∈ before ++ after) : other.typeSet ≠ shape.typeSet := by
  have hnodup := h.nodup_typeSets
  rw [hsplit, List.map_append, List.map_cons, List.nodup_middle, List.nodup_cons,
    ← List.map_append] at hnodup
  intro heq
  exact hnodup.1 (heq ▸ List.mem_map_of_mem hother)

/-- The shape with the type set of a concrete type stands for it, and every other shape that does
has a smaller type set. -/
theorem LevelFrom.strictSubset_of_typeSetOf
    (h : builder.LevelFrom Below request conditions shapes) {concrete : Name}
    (hc : builder.schema.Possible request.fieldType concrete) {before after : List Shape}
    {shape : Shape} (hsplit : shapes = before ++ shape :: after)
    (hset : shape.typeSet = builder.schema.typeSetOf request.fieldType
      (builder.schema.narrowing request.fieldType conditions) concrete) :
    concrete ∈ shape.possibleTypes ∧ ∀ other ∈ before ++ after, concrete ∈ other.possibleTypes →
      other.typeSet.StrictSubset shape.typeSet := by
  have hshape : shape ∈ shapes := by rw [hsplit]; simp
  refine ⟨(h.mem_possibleTypes hshape).2 fun type htype => ?_, fun other hother hmem => ?_⟩
  · rw [hset] at htype
    exact Schema.possible_of_mem_typeSetOf hc htype
  · have hothers : other ∈ shapes := mem_of_mem_others hsplit hother
    have hsub := Schema.subset_typeSetOf (h.mem_typeSets hothers)
      ((h.mem_possibleTypes hothers).1 hmem)
    rw [← hset] at hsub
    exact TypeSet.strictSubset_of_ne (Schema.increasing_of_mem_typeSets (h.mem_typeSets hothers))
      (Schema.increasing_of_mem_typeSets (h.mem_typeSets hshape)) hsub
      (h.typeSet_ne hsplit hother)

/-- Every concrete type of a field has a shape with its own type set, and that is the most specific
shape for it. -/
theorem LevelFrom.exists_concrete {field : Field}
    (h : builder.LevelFrom Below request conditions field.shapes) {concrete : Name}
    (hc : builder.schema.Possible request.fieldType concrete) :
    ∃ before shape after, field.shapes = before ++ shape :: after ∧
      shape.typeSet = builder.schema.typeSetOf request.fieldType
        (builder.schema.narrowing request.fieldType conditions) concrete ∧
      field.concreteShape? concrete = some shape ∧ concrete ∈ shape.possibleTypes ∧
      ∀ other ∈ before ++ after, concrete ∈ other.possibleTypes →
        other.typeSet.StrictSubset shape.typeSet := by
  obtain ⟨before, shape, after, hsplit, hset⟩ :=
    h.exists_typeSet (Schema.mem_typeSets.2 (.inr ⟨concrete, hc, rfl⟩))
  obtain ⟨hmem, hothers⟩ := h.strictSubset_of_typeSetOf hc hsplit hset
  refine ⟨before, shape, after, hsplit, hset, ?_, hmem, hothers⟩
  refine Field.concreteShape?_eq_some hsplit hmem fun other hother hother' => ?_
  exact (hothers other hother hother').size_lt
    (Schema.increasing_of_mem_typeSets (h.mem_typeSets (mem_of_mem_others hsplit hother)))

/-- A type that is not possible for the field has no shape. -/
theorem LevelFrom.concreteShape?_eq_none {field : Field}
    (h : builder.LevelFrom Below request conditions field.shapes) {concrete : Name}
    (hc : ¬builder.schema.Possible request.fieldType concrete) :
    field.concreteShape? concrete = none := by
  refine Field.concreteShape?_eq_none fun shape hshape hmem => hc ?_
  exact (h.mem_possibleTypes hshape).1 hmem request.fieldType
    (Schema.fieldType_mem_of_mem_typeSets (h.mem_typeSets hshape))

/-- The shape with the smallest type set is the base shape: all others have a narrowing condition
besides the type of the field. -/
theorem LevelFrom.baseShape?_eq_some {field : Field}
    (h : builder.LevelFrom Below request conditions field.shapes) {shape : Shape}
    (hshape : shape ∈ field.shapes) (hset : shape.typeSet = .single request.fieldType) :
    field.baseShape? = some shape := by
  cases hbase : field.baseShape? with
  | none =>
      have := List.find?_eq_none.1 hbase shape hshape
      simp [hset, TypeSet.single, TypeSet.size] at this
  | some base =>
      have hmem : base ∈ field.shapes := List.mem_of_find?_eq_some hbase
      have hsize : base.typeSet.size = 1 := by simpa using List.find?_some hbase
      have hfield := Schema.fieldType_mem_of_mem_typeSets (h.mem_typeSets hmem)
      have heq : base.typeSet = shape.typeSet := (TypeSet.eq_single hfield hsize).trans hset.symm
      rw [List.inj_on_of_nodup_map h.nodup_typeSets hmem hshape heq]

end Builder

/-! ## All fields of a model -/

/-- In a built tree every field with shapes had them built for a request of its own. -/
theorem Builder.DataFieldFrom.exists_fills {builder : Builder} {type : Name}
    {selections : List Resolved} {root : Path} {data field : Field}
    (h : builder.DataFieldFrom type selections root data) (hfield : field ∈ data.all)
    (hshapes : field.shapes ≠ []) : ∃ request, builder.Fills request field := by
  have hall := h.fills.forall_mem_all (Q := fun _ => True) trivial
    (fun _ _ _ _ _ _ _ _ _ _ _ _ _ => trivial) field hfield
  rcases hall with hnone | ⟨request, hfills, -⟩
  · exact absurd hnone hshapes
  · exact ⟨request, hfills⟩

/-- The same of the trees of a model. -/
theorem Linked.exists_fills {options : Options} {schema : Schema}
    {documents accompanying : List Document} {linked : Linked} {config : Config} {model : Model}
    (hlink : Linked.ofDocuments options schema documents accompanying = .ok linked)
    (hbuild : (linked.build config).result = .ok model) {data field : Field}
    (hdata : data ∈ model.dataFields) (hfield : field ∈ data.all) (hshapes : field.shapes ≠ []) :
    ∃ builder : Builder, builder.schema = schema ∧ ∃ request, builder.Fills request field := by
  obtain ⟨selections, htop⟩ := Linked.exists_isTop hlink hbuild hdata
  obtain ⟨builder, hschema, type, root, hfrom⟩ := htop.dataFieldFrom hlink hbuild
  exact ⟨builder, hschema, hfrom.exists_fills hfield hshapes⟩

/-- **Every concrete type has one most specific shape.**  Take any field with shapes in the tree of
an operation or a fragment.  A type that is possible for the field is resolved to a shape that
stands for it, and every other shape of the field that stands for it has a strictly smaller type
set; a type that is not possible is resolved to nothing.  A shape stands for exactly the types that
are possible for all members of its type set, and unless it is the base shape some concrete type is
resolved to it. -/
theorem concreteShape?_mostSpecific {options : Options} {schema : Schema}
    {documents accompanying : List Document}
    {linked : Linked} {config : Config} {model : Model}
    (hlink : Linked.ofDocuments options schema documents accompanying = .ok linked)
    (hbuild : (linked.build config).result = .ok model) {data field : Field}
    (hdata : data ∈ model.dataFields) (hfield : field ∈ data.all) (hshapes : field.shapes ≠ []) :
    (∀ concrete, schema.Possible field.type.leafName concrete →
      ∃ before shape after, field.shapes = before ++ shape :: after ∧
        field.concreteShape? concrete = some shape ∧ concrete ∈ shape.possibleTypes ∧
        ∀ other ∈ before ++ after, concrete ∈ other.possibleTypes →
          other.typeSet.StrictSubset shape.typeSet) ∧
    (∀ concrete, ¬schema.Possible field.type.leafName concrete →
      field.concreteShape? concrete = none) ∧
    (∀ shape ∈ field.shapes, ∀ concrete, concrete ∈ shape.possibleTypes ↔
      ∀ type ∈ shape.typeSet.names, schema.Possible type concrete) ∧
    (∀ shape ∈ field.shapes, field.baseShape? ≠ some shape →
      ∃ concrete, schema.Possible field.type.leafName concrete ∧
        field.concreteShape? concrete = some shape) := by
  obtain ⟨builder, rfl, request, hfills⟩ := Linked.exists_fills hlink hbuild hdata hfield hshapes
  obtain ⟨conditions, hlevel⟩ := hfills.built.level
  rw [← hfills.fieldType]
  refine ⟨fun concrete hc => ?_, fun concrete hc => hlevel.concreteShape?_eq_none hc,
    fun shape hshape concrete => hlevel.mem_possibleTypes hshape, fun shape hshape hbase => ?_⟩
  · obtain ⟨before, shape, after, hsplit, -, hconcrete⟩ := hlevel.exists_concrete hc
    exact ⟨before, shape, after, hsplit, hconcrete⟩
  · -- a shape other than the base has the type set of a concrete type, which is resolved to it
    rcases Schema.mem_typeSets.1 (hlevel.mem_typeSets hshape) with hset | ⟨concrete, hc, hset⟩
    · exact absurd (hlevel.baseShape?_eq_some hshape hset) hbase
    · obtain ⟨before, found, after, hsplit, hset', hconcrete, -⟩ := hlevel.exists_concrete hc
      have hfound : found ∈ field.shapes := by rw [hsplit]; simp
      rw [List.inj_on_of_nodup_map hlevel.nodup_typeSets hshape hfound (hset.trans hset'.symm)]
      exact ⟨concrete, hc, hconcrete⟩

theorem concreteShape?_mostSpecific_cat :
    Sample.pet.shapes ≠ [] ∧ Sample.schema.Possible Sample.pet.type.leafName "Cat" ∧
    ∃ before shape after, Sample.pet.shapes = before ++ shape :: after ∧
      Sample.pet.concreteShape? "Cat" = some shape ∧ "Cat" ∈ shape.possibleTypes ∧
      ∀ other ∈ before ++ after, "Cat" ∈ other.possibleTypes →
        other.typeSet.StrictSubset shape.typeSet := by
  have hshapes : Sample.pet.shapes ≠ [] := List.ne_nil_of_length_pos (by decide +kernel)
  have hcat : Sample.schema.Possible Sample.pet.type.leafName "Cat" := by decide +kernel
  exact ⟨hshapes, hcat, (concreteShape?_mostSpecific Sample.ofDocuments_eq Sample.build_eq
    Sample.data_mem Sample.pet_mem hshapes).1 "Cat" hcat⟩

end ResponseModel
