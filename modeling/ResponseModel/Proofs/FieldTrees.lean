import ResponseModel.Proofs.ShapePaths

/-!
# The form of a field tree

Whoever walks through the tree of a response relies on its form: a field has shapes exactly if it
has sub-selections, the base shape comes first, and shapes and fields are told apart by their type
sets and their response names.  All shapes of a field are built for one request, one for every type
set of the field, so that the form of their list is that of the list of type sets
(`Schema.exists_typeSets_eq_cons`, `Builder.Fills.wellShaped`).  Main statement:
`wellShaped_of_mem_dataFields`.
-/

namespace ResponseModel

/-! ## The type sets of a field -/

namespace Schema

variable {schema : Schema} {fieldType : Name} {conditions : List Name}

/-- Every type set of a field but the base has at least two members. -/
theorem one_lt_size_of_mem_typeSets {set : TypeSet}
    (h : set ∈ schema.typeSets fieldType conditions) (hne : set ≠ .single fieldType) :
    1 < set.size := by
  have hfield := fieldType_mem_of_mem_typeSets h
  have hpos : 0 < set.size := List.length_pos_of_mem hfield
  have hsize : set.size ≠ 1 := fun hsize => hne (TypeSet.eq_single hfield hsize)
  omega

theorem pairwise_typeSets :
    (schema.typeSets fieldType conditions).Pairwise (·.precedes · = true) :=
  TypeSet.pairwise_inOrder _

/-- The type sets of a field begin with the base. -/
theorem exists_typeSets_eq_cons (schema : Schema) (fieldType : Name) (conditions : List Name) :
    ∃ others, schema.typeSets fieldType conditions = .single fieldType :: others ∧
      ∀ set ∈ others, 1 < set.size := by
  have hbase : .single fieldType ∈ schema.typeSets fieldType conditions :=
    mem_typeSets.2 (.inl rfl)
  obtain ⟨before, others, hsplit⟩ := List.append_of_mem hbase
  have hordered : (before ++ .single fieldType :: others).Pairwise (·.precedes · = true) :=
    hsplit ▸ pairwise_typeSets
  have hsize : ∀ set ∈ before ++ .single fieldType :: others, set ≠ .single fieldType →
      1 < set.size := by
    intro set hset hne
    rw [← hsplit] at hset
    exact one_lt_size_of_mem_typeSets hset hne
  rw [List.pairwise_append, List.pairwise_cons] at hordered
  obtain ⟨-, ⟨hothers, -⟩, hbefore⟩ := hordered
  have hnone : before = [] := by
    rw [List.eq_nil_iff_forall_not_mem]
    intro set hset
    have hprecedes := hbefore set hset _ List.mem_cons_self
    have hlarger := hsize set (by simp [hset]) (TypeSet.precedes_ne hprecedes)
    rw [TypeSet.precedes_iff] at hprecedes
    have hsingle : (TypeSet.single fieldType).size = 1 := rfl
    omega
  refine ⟨others, by simp [hsplit, hnone], fun set hset => ?_⟩
  exact hsize set (by simp [hset]) (TypeSet.precedes_ne (hothers set hset)).symm

end Schema

/-! ## The shapes of a field -/

theorem NamedType.isComposite_iff {type : NamedType} :
    type.isComposite = true ↔ type.kind ∈ [.object, .interface, .union] := by
  unfold isComposite
  cases type.kind <;> simp

namespace Field

/-- The shapes of the field are in order. -/
structure WellShaped (field : Field) : Prop where
  /-- The base comes first, and no other type set has one member only. -/
  base : ∃ base others, field.shapes = base :: others ∧
    base.typeSet = .single field.type.leafName ∧ ∀ other ∈ others, other.typeSet.size ≠ 1
  leafName_mem : ∀ shape ∈ field.shapes, field.type.leafName ∈ shape.typeSet.names
  increasing : ∀ shape ∈ field.shapes, shape.typeSet.Increasing
  nodup : (field.shapes.map ShapeOf.typeSet).Nodup
  /-- Smaller type sets come first, those of one size are in the order of their names. -/
  sorted : field.shapes.Pairwise fun shape other =>
    shape.typeSet.size < other.typeSet.size ∨
      shape.typeSet.size = other.typeSet.size ∧ shape.typeSet.names < other.typeSet.names
  fieldType : ∀ shape ∈ field.shapes, shape.fieldType = field.type.leafName
  responseName : ∀ shape ∈ field.shapes, shape.responseName = field.responseName
  /-- Every shape tells its fields apart by their response names. -/
  nodup_fields : ∀ shape ∈ field.shapes, (shape.fields.map Field.responseName).Nodup

end Field

namespace Builder

variable {builder : Builder} {request : Request}

theorem LevelFrom.exists_base {Below : Request → List Shape → Prop} {conditions : List Name}
    {shapes : List Shape} (h : builder.LevelFrom Below request conditions shapes) :
    ∃ base others, shapes = base :: others ∧ base.typeSet = .single request.fieldType ∧
      ∀ other ∈ others, 1 < other.typeSet.size := by
  obtain ⟨sets, hsets, hsizes⟩ :=
    builder.schema.exists_typeSets_eq_cons request.fieldType conditions
  obtain ⟨base, others, hshapes, hbase, hothers⟩ :=
    List.map_eq_cons_iff.1 (h.typeSets.trans hsets)
  refine ⟨base, others, hshapes, hbase, fun other hother => hsizes _ ?_⟩
  rw [← hothers]
  exact List.mem_map_of_mem hother

theorem Built.ne_nil {shapes : List Shape} (h : builder.Built request shapes) : shapes ≠ [] := by
  obtain ⟨conditions, hlevel⟩ := h.level
  obtain ⟨base, others, rfl, -⟩ := hlevel.exists_base
  exact List.cons_ne_nil base others

/-- The shapes that are built for a field are in order. -/
theorem Fills.wellShaped {field : Field} (h : builder.Fills request field) : field.WellShaped := by
  obtain ⟨conditions, hlevel⟩ := h.built.level
  obtain ⟨here, hnodup, hnames, -⟩ := h.placed
  have hmem := fun shape (hshape : shape ∈ field.shapes) => hlevel.mem_typeSets hshape
  constructor
  · obtain ⟨base, others, hshapes, hbase, hothers⟩ := hlevel.exists_base
    refine ⟨base, others, hshapes, h.fieldType ▸ hbase, fun other hother => ?_⟩
    have hsize := hothers other hother
    omega
  · intro shape hshape
    rw [← h.fieldType]
    exact Schema.fieldType_mem_of_mem_typeSets (hmem shape hshape)
  · intro shape hshape
    exact Schema.increasing_of_mem_typeSets (hmem shape hshape)
  · exact hnodup
  · have hsorted : (field.shapes.map ShapeOf.typeSet).Pairwise (·.precedes · = true) :=
      hlevel.typeSets ▸ Schema.pairwise_typeSets
    rw [List.pairwise_map] at hsorted
    exact hsorted.imp TypeSet.precedes_iff.1
  · intro shape hshape
    obtain ⟨earlier, later, collected, -, hfrom⟩ := hlevel.exists_shapeFrom hshape
    rw [hfrom.fieldType, h.fieldType]
  · intro shape hshape
    exact (here shape hshape).2
  · exact hnames

/-- A field of a built shape has shapes exactly if it has sub-selections. -/
theorem FieldFrom.shapes_ne_nil_iff {path : Path} {parents : List Shape} {entry : Name × Merged}
    {field : Field} (h : builder.FieldFrom builder.Built path parents entry field) :
    field.shapes ≠ [] ↔ field.type.leaf.isComposite = true := by
  cases hcomposite : field.type.leaf.isComposite with
  | false => simp [h.leaf hcomposite]
  | true => simp [(h.shapes hcomposite).ne_nil]

end Builder

/-- **The form of a field tree.**  The top of a tree has shapes, and every other field has shapes
exactly if its innermost type is an object, an interface or a union.  If a field has shapes, they
are in order: the base comes first, with the innermost type of the field as its only condition, and
is the only one with a single condition; the type set of every shape contains that type; the type
sets are different, and increase by size and then by the names in them; every shape names the field
that it belongs to, by its innermost type and its response name; and the fields of a shape have
different response names. -/
theorem wellShaped_of_mem_dataFields {options : Options} {schema : Schema}
    {documents accompanying : List Document}
    {linked : Linked} {config : Config} {model : Model}
    (hlink : Linked.ofDocuments options schema documents accompanying = .ok linked)
    (hbuild : (linked.build config).result = .ok model) {data : Field}
    (hdata : data ∈ model.dataFields) :
    data.shapes ≠ [] ∧
    (∀ shape ∈ data.allShapes, ∀ field ∈ shape.fields,
      field.shapes ≠ [] ↔ field.type.leaf.kind ∈ [.object, .interface, .union]) ∧
    ∀ field ∈ data.all, field.shapes ≠ [] → field.WellShaped := by
  obtain ⟨selections, htop⟩ := Linked.exists_isTop hlink hbuild hdata
  obtain ⟨builder, rfl, type, root, hfrom⟩ := htop.dataFieldFrom hlink hbuild
  refine ⟨hfrom.fills.built.ne_nil, fun shape hshape field hfield => ?_,
    fun field hfield hshapes => ?_⟩
  · obtain ⟨request, earlier, collected, entry, -, -, -, hfieldFrom⟩ :=
      hfrom.fills.exists_fieldFrom (Q := fun _ => True) trivial
        (fun _ _ _ _ _ _ _ _ _ _ _ _ _ => trivial) hshape hfield
    rw [hfieldFrom.shapes_ne_nil_iff, NamedType.isComposite_iff]
  · obtain ⟨request, hfills⟩ := hfrom.exists_fills hfield hshapes
    exact hfills.wellShaped

theorem wellShaped_of_mem_dataFields_pet :
    Sample.data ∈ Sample.model.dataFields ∧ Sample.pet ∈ Sample.data.all ∧
    Sample.pet.shapes.map (fun shape => shape.typeSet.names) =
      [["Pet"], ["Noisy", "Pet"], ["Cat", "Noisy", "Pet"]] ∧ Sample.pet.WellShaped := by
  have hsets : Sample.pet.shapes.map (fun shape => shape.typeSet.names) =
      [["Pet"], ["Noisy", "Pet"], ["Cat", "Noisy", "Pet"]] := by decide +kernel
  have hshapes : Sample.pet.shapes ≠ [] := by
    intro hnil
    simp [hnil] at hsets
  exact ⟨Sample.data_mem, Sample.pet_mem, hsets,
    (wellShaped_of_mem_dataFields Sample.ofDocuments_eq Sample.build_eq Sample.data_mem).2.2
      Sample.pet Sample.pet_mem hshapes⟩

end ResponseModel
