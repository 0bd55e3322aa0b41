import ResponseModel.Proofs.Building

/-!
# Trees of fields and shapes

All fields of a tree, in the order of a walk that goes down first (`Field.all`), and how a
property passes from the top of a tree to every field in it.  In a built tree every field either
has no shapes or had them built for a request of its own (`Fills.forall_mem_all`), and that
request carries whatever passes from a request to those below it.
-/

namespace ResponseModel

/-! ## Fields below a field -/

mutual

/-- The field and all fields below it. -/
def Field.all : Field → List Field
  | ⟨name, aliasName, arguments, description, deprecationReason, type, isOverride, condition,
      shapes⟩ =>
      ⟨name, aliasName, arguments, description, deprecationReason, type, isOverride, condition,
        shapes⟩ :: fieldsOfShapes shapes

/-- All fields in a list of shapes. -/
def fieldsOfShapes : List (ShapeOf Field) → List Field
  | [] => []
  | shape :: rest => fieldsOfShape shape ++ fieldsOfShapes rest

/-- All fields in a shape. -/
def fieldsOfShape : ShapeOf Field → List Field
  | ⟨_, _, _, _, fields, _, _⟩ => fieldsOfFields fields

/-- The fields of a list and all fields below them. -/
def fieldsOfFields : List Field → List Field
  | [] => []
  | field :: rest => field.all ++ fieldsOfFields rest

end

namespace Field

theorem fieldsOfFields_eq (fields : List Field) : fieldsOfFields fields = fields.flatMap all := by
  induction fields with
  | nil => rfl
  | cons field rest ih => rw [fieldsOfFields, List.flatMap_cons, ih]

theorem fieldsOfShapes_eq (shapes : List Shape) :
    fieldsOfShapes shapes = shapes.flatMap fun shape => shape.fields.flatMap all := by
  induction shapes with
  | nil => rfl
  | cons shape rest ih =>
      rw [fieldsOfShapes, List.flatMap_cons, ih, ← fieldsOfFields_eq]
      cases shape
      rfl

theorem all_eq (field : Field) :
    field.all = field :: field.shapes.flatMap fun shape => shape.fields.flatMap all := by
  rw [← fieldsOfShapes_eq]
  cases field
  rfl

/-- The shapes of a field and of all fields below it. -/
def allShapes (field : Field) : List Shape := field.all.flatMap Field.shapes

theorem self_mem_all (field : Field) : field ∈ field.all := by
  rw [all_eq]
  exact List.mem_cons_self

/-- A statement about fields holds if it passes from the fields of the shapes of a field to the
field. -/
theorem induction {P : Field → Prop}
    (h : ∀ field, (∀ shape ∈ field.shapes, ∀ sub ∈ shape.fields, P sub) → P field)
    (field : Field) : P field :=
  h field fun shape _hshape sub _hsub => induction h sub
termination_by sizeOf field
decreasing_by
  have h1 := List.sizeOf_lt_of_mem _hsub
  have h2 := List.sizeOf_lt_of_mem _hshape
  cases field
  cases shape
  simp only [mk.sizeOf_spec, ShapeOf.mk.sizeOf_spec] at *
  omega

theorem mem_all_iff {top field : Field} : field ∈ top.all ↔
    field = top ∨ ∃ shape ∈ top.shapes, ∃ sub ∈ shape.fields, field ∈ sub.all := by
  rw [all_eq, List.mem_cons]
  simp only [List.mem_flatMap]

/-- The fields of a shape in a tree are in the tree. -/
theorem mem_all_of_mem_fields {top field sub : Field} {shape : Shape} (hfield : field ∈ top.all)
    (hshape : shape ∈ field.shapes) (hsub : sub ∈ shape.fields) : sub ∈ top.all := by
  induction top using Field.induction with
  | h top ih =>
      rw [mem_all_iff] at hfield ⊢
      rcases hfield with rfl | ⟨shape', hshape', sub', hsub', hfield⟩
      · exact .inr ⟨shape, hshape, sub, hsub, sub.self_mem_all⟩
      · exact .inr ⟨shape', hshape', sub', hsub', ih shape' hshape' sub' hsub' hfield⟩

/-- A property of the top of a tree that passes from a field to the fields of its shapes is a
property of all fields of the tree. -/
theorem forall_mem_all {P : Field → Prop} {top : Field} (htop : P top)
    (hstep : ∀ field, P field → ∀ shape ∈ field.shapes, ∀ sub ∈ shape.fields, P sub) :
    ∀ field ∈ top.all, P field := by
  induction top using Field.induction with
  | h top ih =>
      intro field hfield
      rcases mem_all_iff.1 hfield with rfl | ⟨shape, hshape, sub, hsub, hfield⟩
      · exact htop
      · exact ih shape hshape sub hsub (hstep top htop shape hshape sub hsub) field hfield

/-- A field of a tree is its top or a field of one of its shapes. -/
theorem mem_all_iff_top_or_fields {top field : Field} : field ∈ top.all ↔
    field = top ∨ ∃ shape ∈ top.allShapes, field ∈ shape.fields := by
  constructor
  · refine fun hfield => (forall_mem_all (P := fun field => field ∈ top.all ∧
      (field = top ∨ ∃ shape ∈ top.allShapes, field ∈ shape.fields))
      ⟨top.self_mem_all, .inl rfl⟩ ?_ field hfield).2
    rintro around ⟨haround, -⟩ shape hshape sub hsub
    exact ⟨mem_all_of_mem_fields haround hshape hsub,
      .inr ⟨shape, List.mem_flatMap.2 ⟨around, haround, hshape⟩, hsub⟩⟩
  · rintro (rfl | ⟨shape, hshape, hfield⟩)
    · exact field.self_mem_all
    · obtain ⟨around, haround, hshape⟩ := List.mem_flatMap.1 hshape
      exact mem_all_of_mem_fields haround hshape hfield

end Field

theorem ShapeOf.field?_eq_some {shape : Shape} {name : Name} {field : Field}
    (h : shape.field? name = some field) : field ∈ shape.fields ∧ field.responseName = name :=
  ⟨List.mem_of_find?_eq_some h, by simpa using List.find?_some h⟩

theorem ShapeOf.isSome_field? {shape : Shape} {name : Name} :
    (shape.field? name).isSome = true ↔ name ∈ shape.fields.map Field.responseName := by
  simp [ShapeOf.field?, List.find?_isSome]

/-! ## Built trees -/

theorem NamedType.name_of_builtIn? {name : Name} {type : NamedType}
    (h : NamedType.builtIn? name = some type) : type.name = name := by
  unfold NamedType.builtIn? at h
  split_ifs at h with h1 h2 h3 h4 h5
  all_goals
    obtain rfl := Option.some.inj h
    simp [NamedType.name, *]

theorem Schema.name_of_namedType {schema : Schema} {name : Name} {type : NamedType}
    (h : schema.namedType name = .ok type) : type.name = name := by
  unfold Schema.namedType at h
  split at h
  · next hbuiltIn =>
      obtain rfl := Except.ok.inj h
      exact NamedType.name_of_builtIn? hbuiltIn
  · split at h
    · nomatch h
    all_goals
      obtain rfl := Except.ok.inj h
      rfl

theorem Schema.leaf_wrap (required : Bool) (type : ModelType) :
    (Schema.wrap required type).leaf = type.leaf := by
  cases required <;> rfl

/-- Resolving a type resolves its innermost name. -/
theorem Schema.namedType_of_modelType {schema : Schema} {written : TypeRef} {type : ModelType}
    (h : schema.modelType written = .ok type) :
    schema.namedType written.innerName = .ok type.leaf := by
  induction written generalizing type with
  | named name required =>
      obtain ⟨named, hnamed, rfl⟩ := except_map_eq_ok.1 h
      rw [leaf_wrap]
      exact hnamed
  | list item required ih =>
      obtain ⟨inner, hinner, rfl⟩ := except_map_eq_ok.1 h
      rw [leaf_wrap]
      have hleaf : schema.namedType item.innerName = .ok inner.leaf := ih hinner
      exact hleaf

/-- Resolving a type keeps its innermost name. -/
theorem Schema.leafName_of_modelType {schema : Schema} {written : TypeRef} {type : ModelType}
    (h : schema.modelType written = .ok type) : type.leafName = written.innerName :=
  name_of_namedType (namedType_of_modelType h)

namespace Builder

variable {builder : Builder} {request : Request}

/-- The shapes of the field were built for the request, which asks for this field. -/
structure Fills (builder : Builder) (request : Request) (field : Field) : Prop where
  built : builder.Built request field.shapes
  fieldType : request.fieldType = field.type.leafName
  responseName : request.responseName = field.responseName

theorem narrowest_mem (builder : Builder) (merged : Merged) :
    builder.narrowest merged ∈ merged.occurrences := merged.leastBy_mem _

theorem narrowest_le (builder : Builder) (merged : Merged) : ∀ o ∈ merged.occurrences,
    (builder.schema.possibleTypes (builder.narrowest merged).parent).length ≤
      (builder.schema.possibleTypes o.parent).length :=
  merged.leastBy_le fun o => (builder.schema.possibleTypes o.parent).length

theorem ShapeFrom.groups {Below : Request → List Shape → Prop} {earlier : List Shape}
    {collected : Collected} {shape : Shape}
    (h : builder.ShapeFrom Below request earlier collected shape) :
    ∃ pieces, flattenBranches (builder.schema.applies shape.typeSet shape.possibleTypes)
        request.branches = .ok pieces ∧
      Groups (Flat.occurrences pieces) collected.fields := by
  obtain ⟨pieces, hpieces, rfl⟩ := collect_eq_ok.1 h.collects
  exact ⟨pieces, hpieces, groups_ofFlat pieces⟩

theorem FieldFrom.responseName {Below : Request → List Shape → Prop} {path : Path}
    {parents : List Shape} {entry : Name × Merged} {field : Field}
    (h : builder.FieldFrom Below path parents entry field)
    (hentry : ∀ o ∈ entry.2.occurrences, o.responseName = entry.1) :
    field.responseName = entry.1 := by
  rw [← hentry _ (builder.narrowest_mem entry.2), Field.responseName, h.name, h.aliasName]
  rfl

/-- Every collected entry becomes a field of the same name, in the same order. -/
theorem ShapeFrom.map_responseName {Below : Request → List Shape → Prop} {earlier : List Shape}
    {collected : Collected} {shape : Shape}
    (h : builder.ShapeFrom Below request earlier collected shape) :
    shape.fields.map Field.responseName = collected.fields.map Prod.fst := by
  obtain ⟨pieces, -, hgroups⟩ := h.groups
  have hnames : List.Forall₂ (· = ·) (collected.fields.map Prod.fst)
      (shape.fields.map Field.responseName) := by
    rw [List.forall₂_map_left_iff, List.forall₂_map_right_iff]
    refine List.forall₂_iff_zip.2 ⟨h.fields.length_eq, fun {entry field} hzip => ?_⟩
    refine (((List.forall₂_iff_zip.1 h.fields).2 hzip).responseName fun o ho => ?_).symm
    exact (hgroups.mem_of_mem_occurrences (List.of_mem_zip hzip).1 ho).2
  rw [List.forall₂_eq_eq_eq] at hnames
  exact hnames.symm

/-- Every field of a shape comes from a collected entry. -/
theorem ShapeFrom.exists_entry {Below : Request → List Shape → Prop} {earlier : List Shape}
    {collected : Collected} {shape : Shape}
    (h : builder.ShapeFrom Below request earlier collected shape) {field : Field}
    (hfield : field ∈ shape.fields) :
    ∃ entry ∈ collected.fields, entry.1 = field.responseName ∧
      builder.FieldFrom Below shape.fullPath (builder.parents request earlier shape collected)
        entry field := by
  obtain ⟨pieces, -, hgroups⟩ := h.groups
  obtain ⟨entry, hentry, hfrom⟩ := exists_of_forall₂_of_mem h.fields hfield
  refine ⟨entry, hentry, (hfrom.responseName fun o ho => ?_).symm, hfrom⟩
  exact (hgroups.mem_of_mem_occurrences hentry ho).2

/-- A field with sub-selections has its shapes built for the request below its occurrences. -/
theorem FieldFrom.fills {path : Path} {parents : List Shape} {entry : Name × Merged}
    {field : Field} (h : builder.FieldFrom builder.Built path parents entry field)
    (hname : entry.1 = field.responseName) (hcomposite : field.type.leaf.isComposite = true) :
    builder.Fills (builder.requestBelow path parents entry) field :=
  ⟨h.shapes hcomposite, (Schema.leafName_of_modelType h.type).symm, hname⟩

/-- In a tree whose top was built for a request, every field has no shapes or had them built for a
request.  A property of requests holds of all of them if it passes to the requests below. -/
theorem Fills.forall_mem_all {Q : Request → Prop} {top : Field} (htop : builder.Fills request top)
    (hQ : Q request)
    (hstep : ∀ request field earlier shape later collected entry, field ∈ top.all →
      builder.Fills request field → Q request → field.shapes = earlier ++ shape :: later →
      builder.ShapeFrom builder.Built request earlier collected shape → entry ∈ collected.fields →
      Q (builder.requestBelow shape.fullPath (builder.parents request earlier shape collected)
        entry)) :
    ∀ field ∈ top.all, field.shapes = [] ∨ ∃ request, builder.Fills request field ∧ Q request := by
  suffices hall : ∀ field ∈ top.all, field ∈ top.all ∧
      (field.shapes = [] ∨ ∃ request, builder.Fills request field ∧ Q request) from
    fun field hfield => (hall field hfield).2
  refine Field.forall_mem_all ⟨top.self_mem_all, .inr ⟨request, htop, hQ⟩⟩ ?_
  rintro field ⟨hfield, hfills⟩ shape hshape sub hsub
  refine ⟨Field.mem_all_of_mem_fields hfield hshape hsub, ?_⟩
  rcases hfills with hnone | ⟨request, hfills, hQ⟩
  · rw [hnone] at hshape
    exact absurd hshape List.not_mem_nil
  · obtain ⟨conditions, hlevel⟩ := hfills.built.level
    obtain ⟨earlier, later, collected, hsplit, hfrom⟩ := hlevel.exists_shapeFrom hshape
    obtain ⟨entry, hentry, hname, hsubfrom⟩ := hfrom.exists_entry hsub
    cases hcomposite : sub.type.leaf.isComposite with
    | false => exact .inl (hsubfrom.leaf hcomposite)
    | true =>
        exact .inr ⟨_, hsubfrom.fills hname hcomposite, hstep request field earlier shape later
          collected entry hfield hfills hQ hsplit hfrom hentry⟩

/-- Every field below the top of a tree comes from an entry that was collected for the shape that it
is in, and the request of that shape has what passes to the requests below. -/
theorem Fills.exists_fieldFrom {Q : Request → Prop} {top : Field}
    (htop : builder.Fills request top) (hQ : Q request)
    (hstep : ∀ request field earlier shape later collected entry, field ∈ top.all →
      builder.Fills request field → Q request → field.shapes = earlier ++ shape :: later →
      builder.ShapeFrom builder.Built request earlier collected shape → entry ∈ collected.fields →
      Q (builder.requestBelow shape.fullPath (builder.parents request earlier shape collected)
        entry))
    {shape : Shape} (hshape : shape ∈ top.allShapes) {field : Field}
    (hfield : field ∈ shape.fields) :
    ∃ request earlier collected entry, Q request ∧
      builder.ShapeFrom builder.Built request earlier collected shape ∧
      entry ∈ collected.fields ∧ builder.FieldFrom builder.Built shape.fullPath
        (builder.parents request earlier shape collected) entry field := by
  obtain ⟨around, haround, hshape⟩ := List.mem_flatMap.1 hshape
  rcases htop.forall_mem_all hQ hstep around haround with hnone | ⟨request, hfills, hQ⟩
  · rw [hnone] at hshape
    exact absurd hshape List.not_mem_nil
  · obtain ⟨conditions, hlevel⟩ := hfills.built.level
    obtain ⟨earlier, later, collected, -, hfrom⟩ := hlevel.exists_shapeFrom hshape
    obtain ⟨entry, hentry, -, hfieldFrom⟩ := hfrom.exists_entry hfield
    exact ⟨request, earlier, collected, entry, hQ, hfrom, hentry, hfieldFrom⟩

end Builder

end ResponseModel
