import ResponseModel.Proofs.Coercions

/-!
# Outlines

The outline of a literal or of a value says where it has variables, lists and objects, and how the
fields of the objects are named.  Coercion keeps it (`outline_of_coerce`).

The fields of an object have different names where the object stands for an input object.  A custom
scalar takes an object as it is written, with the names that are repeated in it
(`json_repeats_name`), and there is no other way for a repetition to get into a coerced value
(`repeated_iff_asWritten`).
-/

namespace ResponseModel

/-- The outline of a literal or a value. -/
inductive Outline where
  | leaf
  | var (name : Name)
  | list (items : List Outline)
  | object (fields : List (Name × Outline))
  deriving Inhabited

namespace Literal

mutual

/-- The outline of a literal. -/
def outline : Literal → Outline
  | .var name => .var name
  | .list items => .list (outlineItems items)
  | .object fields => .object (outlineFields fields)
  | _ => .leaf

/-- The outlines of the items of a list. -/
def outlineItems : List Literal → List Outline
  | [] => []
  | item :: rest => item.outline :: outlineItems rest

/-- The outlines of the fields of an object. -/
def outlineFields : List (Name × Literal) → List (Name × Outline)
  | [] => []
  | (name, value) :: rest => (name, value.outline) :: outlineFields rest

end

theorem map_fst_outlineFields (fields : List (Name × Literal)) :
    (outlineFields fields).map Prod.fst = fields.map Prod.fst := by
  induction fields with
  | nil => rfl
  | cons field rest ih => rw [outlineFields, List.map_cons, List.map_cons, ih]

end Literal

namespace Value

mutual

/-- The outline of a value. -/
def outline : Value → Outline
  | .var name => .var name
  | .list items => .list (outlineItems items)
  | .object fields => .object (outlineFields fields)
  | _ => .leaf

/-- The outlines of the items of a list. -/
def outlineItems : List Value → List Outline
  | [] => []
  | item :: rest => item.outline :: outlineItems rest

/-- The outlines of the fields of an object. -/
def outlineFields : List (Name × Value) → List (Name × Outline)
  | [] => []
  | (name, value) :: rest => (name, value.outline) :: outlineFields rest

end

theorem outline_ofIntText (text : String) : (ofIntText text).outline = .leaf := by
  unfold ofIntText
  split
  · rfl
  · split <;> rfl

theorem outline_ofFloatText (text : String) : (ofFloatText text).outline = .leaf := by
  unfold ofFloatText
  split <;> rfl

end Value

/-! ## Coercion keeps the outline -/

mutual

theorem Literal.outline_verbatim : ∀ literal : Literal, literal.verbatim.outline = literal.outline
  | .null | .boolean _ | .string _ | .enum _ | .var _ => rfl
  | .int text => Value.outline_ofIntText text
  | .float text => Value.outline_ofFloatText text
  | .list items => congrArg Outline.list (outlineItems_verbatimItems items)
  | .object fields => congrArg Outline.object (outlineFields_verbatimFields fields)

theorem Literal.outlineItems_verbatimItems : ∀ items : List Literal,
    Value.outlineItems (verbatimItems items) = outlineItems items
  | [] => rfl
  | item :: rest => by
      rw [verbatimItems, Value.outlineItems, outlineItems, outline_verbatim item,
        outlineItems_verbatimItems rest]

theorem Literal.outlineFields_verbatimFields : ∀ fields : List (Name × Literal),
    Value.outlineFields (verbatimFields fields) = outlineFields fields
  | [] => rfl
  | (name, value) :: rest => by
      rw [verbatimFields, Value.outlineFields, outlineFields, outline_verbatim value,
        outlineFields_verbatimFields rest]

end

namespace Coercion

variable {schema : Schema}

theorem FieldsBy.outlineFields {definitions : List InputDefinition}
    {fields : List (Name × Literal)} {values : List (Name × Value)}
    (h : FieldsBy (fun _ literal value => value.outline = literal.outline) definitions fields
      values) : Value.outlineFields values = Literal.outlineFields fields := by
  induction h with
  | nil => rfl
  | cons hfield _ ih =>
      obtain ⟨hname, -, -, houtline⟩ := hfield
      rw [Value.outlineFields, Literal.outlineFields, hname, houtline, ih]

theorem respects_outline :
    Respects schema fun _ literal value => value.outline = literal.outline where
  var _ _ := rfl
  null _ _ := rfl
  list _ _ items values h := by
    refine congrArg Outline.list ?_
    induction h with
    | nil => rfl
    | cons hitem _ ih => rw [Value.outlineItems, Literal.outlineItems, hitem, ih]
  builtIn _ _ _ _ h := by cases h <;> rfl
  enum _ _ _ _ _ _ := rfl
  object _ _ _ _ _ _ _ hfields _ := congrArg Outline.object hfields.outlineFields
  custom _ _ literal _ _ _ := literal.outline_verbatim

/-- A coerced value has the outline of the literal. -/
theorem outline_of_coerce {type : TypeRef} {literal : Literal} {value : Value}
    (h : coerce schema type literal = .ok value) : value.outline = literal.outline :=
  respects_outline.of_coerce h

end Coercion

/-! ## Objects -/

namespace Outline

mutual

/-- The names of the fields of every object, the outer objects first. -/
def objects : Outline → List (List Name)
  | .leaf | .var _ => []
  | .list items => objectsOfItems items
  | .object fields => fields.map Prod.fst :: objectsOfFields fields

/-- The objects in the items of a list. -/
def objectsOfItems : List Outline → List (List Name)
  | [] => []
  | item :: rest => item.objects ++ objectsOfItems rest

/-- The objects in the fields of an object. -/
def objectsOfFields : List (Name × Outline) → List (List Name)
  | [] => []
  | (_, value) :: rest => value.objects ++ objectsOfFields rest

end

end Outline

namespace Literal

variable {names : List Name}

theorem mem_objects_list {items : List Literal} :
    names ∈ (Literal.list items).outline.objects ↔
      ∃ item ∈ items, names ∈ item.outline.objects := by
  rw [outline, Outline.objects]
  induction items with
  | nil => simp [outlineItems, Outline.objectsOfItems]
  | cons item rest ih => simp [outlineItems, Outline.objectsOfItems, ih]

theorem mem_objects_object {fields : List (Name × Literal)} :
    names ∈ (Literal.object fields).outline.objects ↔
      names = fields.map Prod.fst ∨ ∃ field ∈ fields, names ∈ field.2.outline.objects := by
  rw [outline, Outline.objects, List.mem_cons]
  refine or_congr ?_ ?_
  · rw [map_fst_outlineFields]
  · induction fields with
    | nil => simp [outlineFields, Outline.objectsOfFields]
    | cons field rest ih => simp [outlineFields, Outline.objectsOfFields, ih]

end Literal

namespace Coercion

variable {schema : Schema} {type : TypeRef} {literal part : Literal}

/-- The literal, in the place of the type, has a part in the place of a custom scalar. -/
inductive AsWritten (schema : Schema) : TypeRef → Literal → Literal → Prop
  | custom {name : Name} {required : Bool} {literal : Literal} : schema.IsCustomScalar name →
      AsWritten schema (.named name required) literal literal
  | item {type : TypeRef} {required : Bool} {items : List Literal} {item part : Literal} :
      item ∈ items → AsWritten schema type item part →
      AsWritten schema (.list type required) (.list items) part
  | field {name : Name} {required : Bool} {definitions : List InputDefinition}
      {fields : List (Name × Literal)} {field : Name × Literal} {definition : InputDefinition}
      {part : Literal} : schema.body? name = some (.inputObject definitions) → field ∈ fields →
      definitions.find? (·.name = field.1) = some definition →
      AsWritten schema definition.type field.2 part →
      AsWritten schema (.named name required) (.object fields) part

theorem AsWritten.exists_isCustomScalar (h : AsWritten schema type literal part) :
    ∃ name, schema.IsCustomScalar name := by
  induction h with
  | custom hcustom => exact ⟨_, hcustom⟩
  | item _ _ ih => exact ih
  | field _ _ _ _ ih => exact ih

theorem AsWritten.objects_subset (h : AsWritten schema type literal part) :
    part.outline.objects ⊆ literal.outline.objects := by
  induction h with
  | custom _ => exact List.Subset.refl _
  | item hitem _ ih =>
      intro names hnames
      exact Literal.mem_objects_list.2 ⟨_, hitem, ih hnames⟩
  | field _ hfield _ _ ih =>
      intro names hnames
      exact Literal.mem_objects_object.2 (.inr ⟨_, hfield, ih hnames⟩)

/-- The fields of every object have different names, unless the object is taken as it is written. -/
def Distinct (schema : Schema) (type : TypeRef) (literal : Literal) : Prop :=
  ∀ names ∈ literal.outline.objects, names.Nodup ∨
    ∃ part, AsWritten schema type literal part ∧ names ∈ part.outline.objects

theorem respects_distinct : Respects schema fun type literal _ => Distinct schema type literal where
  var _ _ _ hnames := absurd hnames List.not_mem_nil
  null _ _ _ hnames := absurd hnames List.not_mem_nil
  list item required items values h := by
    intro names hnames
    obtain ⟨literal, hliteral, hnames⟩ := Literal.mem_objects_list.1 hnames
    obtain ⟨value, -, hdistinct⟩ := exists_of_forall₂_of_mem h.flip hliteral
    rcases hdistinct names hnames with hnodup | ⟨part, hpart, hmem⟩
    · exact .inl hnodup
    · exact .inr ⟨part, .item hliteral hpart, hmem⟩
  builtIn _ _ _ _ h _ hnames := by
    cases h <;> exact absurd hnames List.not_mem_nil
  enum _ _ _ _ _ _ _ hnames := absurd hnames List.not_mem_nil
  object name required definitions fields values hbody hnodup h _ := by
    intro names hnames
    rcases Literal.mem_objects_object.1 hnames with rfl | ⟨field, hfield, hnames⟩
    · exact .inl hnodup
    · obtain ⟨value, -, -, definition, hfind, hdistinct⟩ := exists_of_forall₂_of_mem h.flip hfield
      rcases hdistinct names hnames with hnodup | ⟨part, hpart, hmem⟩
      · exact .inl hnodup
      · exact .inr ⟨part, .field hbody hfield hfind hpart, hmem⟩
  custom _ _ literal hcustom _ _ _ hnames := .inr ⟨literal, .custom hcustom, hnames⟩

/-- The objects of a coerced value in which a name is repeated are those of the literals that a
custom scalar took as they were written.  Without custom scalars there are none. -/
theorem repeated_iff_asWritten {value : Value} (h : coerce schema type literal = .ok value) :
    (∀ names : List Name, ¬ names.Nodup → (names ∈ value.outline.objects ↔
      ∃ part, AsWritten schema type literal part ∧ names ∈ part.outline.objects)) ∧
    (schema.NoCustomScalars → ∀ names ∈ value.outline.objects, names.Nodup) := by
  rw [outline_of_coerce h]
  have hdistinct : Distinct schema type literal := respects_distinct.of_coerce h
  refine ⟨fun names hrepeated => ⟨fun hnames => ?_, ?_⟩, fun hnone names hnames => ?_⟩
  · exact (hdistinct names hnames).resolve_left hrepeated
  · rintro ⟨part, hpart, hnames⟩
    exact hpart.objects_subset hnames
  · rcases hdistinct names hnames with hnodup | ⟨part, hpart, -⟩
    · exact hnodup
    · obtain ⟨name, hcustom⟩ := hpart.exists_isCustomScalar
      exact absurd hcustom (hnone name)

namespace Reviews

/-- A review, with replies to it. -/
def review (more : List InputDefinition) : TypeDefinition :=
  ⟨"Review", none, [], .inputObject
    ([⟨"stars", .named "Int" true, none, none, []⟩,
      ⟨"color", .named "Color" false, none, none, []⟩,
      ⟨"weight", .named "Float" false, none, none, []⟩,
      ⟨"replies", .list (.named "Review" true) false, none, none, []⟩] ++ more)⟩

def color : TypeDefinition := ⟨"Color", none, [], .enum [⟨"RED", none, []⟩, ⟨"GREEN", none, []⟩]⟩

/-- Reviews in a schema without scalars of its own. -/
def plain : Schema := ⟨none, none, none, [color, review []], []⟩

/-- Reviews with a field that takes anything. -/
def annotated : Schema :=
  ⟨none, none, none, [⟨"Json", none, [], .scalar⟩, color,
    review [⟨"extra", .named "Json" false, none, none, []⟩]], []⟩

theorem noCustomScalars_plain : plain.NoCustomScalars := by
  apply Schema.noCustomScalars_of_types
  simp [plain, color, review]

/-- A literal in which a name is repeated. -/
def twice : Literal := .object [("a", .int "1"), ("a", .int "2")]

/-- A list with a review that has the repetition in it. -/
def noted : Literal := .list [.object [("stars", .int "5"), ("extra", twice)]]

theorem coerce_noted : coerce annotated (.list (.named "Review" true) true) noted =
    .ok (.list [.object [("stars", .int 5),
      ("extra", .object [("a", .int 1), ("a", .int 2)])]]) := rfl

/-- A review with a reply. -/
def replied : Literal :=
  .object [("replies", .list [.object [("stars", .int "4"), ("color", .enum "RED")]]),
    ("stars", .var "stars")]

theorem coerce_replied : coerce plain (.named "Review" true) replied =
    .ok (.object [("replies", .list [.object [("stars", .int 4), ("color", .enum "RED")]]),
      ("stars", .var "stars")]) := rfl

end Reviews

theorem repeated_iff_asWritten_reviews :
    (∃ value, coerce Reviews.annotated (.list (.named "Review" true) true) Reviews.noted =
        .ok value ∧ ["a", "a"] ∈ value.outline.objects ∧
      ∃ part, AsWritten Reviews.annotated (.list (.named "Review" true) true) Reviews.noted part ∧
        ["a", "a"] ∈ part.outline.objects) ∧
    ∃ value, coerce Reviews.plain (.named "Review" true) Reviews.replied = .ok value ∧
      ∀ names ∈ value.outline.objects, names.Nodup := by
  obtain ⟨hrepeated, -⟩ := repeated_iff_asWritten Reviews.coerce_noted
  obtain ⟨-, hdistinct⟩ := repeated_iff_asWritten Reviews.coerce_replied
  refine ⟨⟨_, Reviews.coerce_noted, by decide, ?_⟩, _, Reviews.coerce_replied, ?_⟩
  · exact (hrepeated ["a", "a"] (by decide)).1 (by decide)
  · exact hdistinct Reviews.noCustomScalars_plain

/-- A custom scalar takes an object in which a name is repeated. -/
theorem json_repeats_name :
    ∃ value, coerce Reviews.annotated (.named "Json" false) Reviews.twice = .ok value ∧
      ∃ names ∈ value.outline.objects, ¬ names.Nodup :=
  ⟨_, rfl, ["a", "a"], by decide, by decide⟩

end Coercion

end ResponseModel
