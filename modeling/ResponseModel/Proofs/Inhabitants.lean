import ResponseModel.Proofs.Outlines
import ResponseModel.Proofs.Uses

/-!
# Inhabitants of input types

What may stand in the place of a type, said of values (`Schema.Inhabits`) and of literals
(`Schema.Conforms`).  Coercion gives a value of the type, with the variables, lists and objects of
the literal, and it succeeds exactly on the literals of the type: `coerce_exact`.
-/

namespace ResponseModel

namespace Schema

/-- The value is one of the type.  Of variables nothing is known here, and a custom scalar may have
any value. -/
inductive Inhabits (schema : Schema) : TypeRef → Value → Prop
  | var {type : TypeRef} {name : Name} : Inhabits schema type (.var name)
  | null {type : TypeRef} : type.isRequired = false → Inhabits schema type .null
  | list {item : TypeRef} {required : Bool} {values : List Value} :
      (∀ value ∈ values, Inhabits schema item value) →
      Inhabits schema (.list item required) (.list values)
  | int {required : Bool} {value : Int} : -2 ^ 31 ≤ value → value < 2 ^ 31 →
      Inhabits schema (.named "Int" required) (.int value)
  | float {required : Bool} {value : Binary64} :
      Inhabits schema (.named "Float" required) (.float value)
  | string {required : Bool} {content : String} :
      Inhabits schema (.named "String" required) (.string content)
  | id {required : Bool} {content : String} :
      Inhabits schema (.named "ID" required) (.string content)
  | boolean {required value : Bool} : Inhabits schema (.named "Boolean" required) (.boolean value)
  | enum {name : Name} {required : Bool} {values : List EnumValueDefinition} {symbol : Name} :
      schema.body? name = some (.enum values) → symbol ∈ values.map EnumValueDefinition.name →
      Inhabits schema (.named name required) (.enum symbol)
  | object {name : Name} {required : Bool} {definitions : List InputDefinition}
      {fields : List (Name × Value)} : schema.body? name = some (.inputObject definitions) →
      (fields.map Prod.fst).Nodup →
      (∀ field ∈ fields, field.1 ∈ definitions.map InputDefinition.name) →
      (∀ field ∈ fields, ∀ definition, definitions.find? (·.name = field.1) = some definition →
        Inhabits schema definition.type field.2) →
      (∀ definition ∈ definitions, definition.isRequired = true →
        definition.name ∈ fields.map Prod.fst) →
      Inhabits schema (.named name required) (.object fields)
  | custom {name : Name} {required : Bool} {value : Value} : schema.IsCustomScalar name →
      Inhabits schema (.named name required) value

/-- The literal is one of the type.  An integer may stand for a float and for an identifier, and a
number in the place of a float must be in the range of the finite ones.  A custom scalar takes any
literal, except that a list needs a list type and null one that allows it. -/
inductive Conforms (schema : Schema) : TypeRef → Literal → Prop
  | var {type : TypeRef} {name : Name} : Conforms schema type (.var name)
  | null {type : TypeRef} : type.isRequired = false → Conforms schema type .null
  | list {item : TypeRef} {required : Bool} {items : List Literal} :
      (∀ literal ∈ items, Conforms schema item literal) →
      Conforms schema (.list item required) (.list items)
  | int {required : Bool} {text : String} {value : Int} : Numeral.SpellsInt text value →
      -2 ^ 31 ≤ value → value < 2 ^ 31 → Conforms schema (.named "Int" required) (.int text)
  | intAsFloat {required : Bool} {text : String} {numeral : Numeral} :
      Numeral.Spells text numeral → |numeral.value| < Binary64.overflow →
      Conforms schema (.named "Float" required) (.int text)
  | float {required : Bool} {text : String} {numeral : Numeral} :
      Numeral.Spells text numeral → |numeral.value| < Binary64.overflow →
      Conforms schema (.named "Float" required) (.float text)
  | string {required : Bool} {content : String} :
      Conforms schema (.named "String" required) (.string content)
  | stringAsId {required : Bool} {content : String} :
      Conforms schema (.named "ID" required) (.string content)
  | intAsId {required : Bool} {text : String} : Conforms schema (.named "ID" required) (.int text)
  | boolean {required value : Bool} : Conforms schema (.named "Boolean" required) (.boolean value)
  | enum {name : Name} {required : Bool} {values : List EnumValueDefinition} {symbol : Name} :
      schema.body? name = some (.enum values) → symbol ∈ values.map EnumValueDefinition.name →
      Conforms schema (.named name required) (.enum symbol)
  | object {name : Name} {required : Bool} {definitions : List InputDefinition}
      {fields : List (Name × Literal)} : schema.body? name = some (.inputObject definitions) →
      (fields.map Prod.fst).Nodup →
      (∀ field ∈ fields, field.1 ∈ definitions.map InputDefinition.name) →
      (∀ field ∈ fields, ∀ definition, definitions.find? (·.name = field.1) = some definition →
        Conforms schema definition.type field.2) →
      (∀ definition ∈ definitions, definition.isRequired = true →
        definition.name ∈ fields.map Prod.fst) →
      Conforms schema (.named name required) (.object fields)
  | custom {name : Name} {required : Bool} {literal : Literal} : schema.IsCustomScalar name →
      literal ≠ .null → (∀ items, literal ≠ .list items) →
      Conforms schema (.named name required) literal

end Schema

namespace Coercion

variable {schema : Schema} {type : TypeRef} {literal : Literal} {value : Value}

/-- Each field is as it should be at the type of its definition: its name is declared, and it is so
at the type that the declaration gives it. -/
theorem forall_exists_definition_iff {α : Type} {P : TypeRef → α → Prop}
    {definitions : List InputDefinition} {fields : List (Name × α)} :
    (∀ field ∈ fields, ∃ definition, definitions.find? (·.name = field.1) = some definition ∧
      P definition.type field.2) ↔
    (∀ field ∈ fields, field.1 ∈ definitions.map InputDefinition.name) ∧
      ∀ field ∈ fields, ∀ definition, definitions.find? (·.name = field.1) = some definition →
        P definition.type field.2 := by
  constructor
  · intro h
    refine ⟨fun field hfield => ?_, fun field hfield other hother => ?_⟩
    · obtain ⟨definition, hfind, -⟩ := h field hfield
      have hname := List.find?_some hfind
      rw [decide_eq_true_eq] at hname
      exact List.mem_map.2 ⟨definition, List.mem_of_find?_eq_some hfind, hname⟩
    · obtain ⟨definition, hfind, hdefinition⟩ := h field hfield
      obtain rfl := Option.some.inj (hfind.symm.trans hother)
      exact hdefinition
  · rintro ⟨hdeclared, htyped⟩ field hfield
    have hsome : (definitions.find? (·.name = field.1)).isSome = true := by
      simpa [List.find?_isSome] using hdeclared field hfield
    obtain ⟨definition, hfind⟩ := Option.isSome_iff_exists.1 hsome
    exact ⟨definition, hfind, htyped field hfield definition hfind⟩

/-! ## Soundness -/

theorem respects_inhabits : Respects schema fun type _ value => schema.Inhabits type value where
  var _ _ := .var
  null _ hnull := .null hnull
  list item required items values h := by
    refine .list fun value hvalue => ?_
    obtain ⟨literal, -, hinhabits⟩ := exists_of_forall₂_of_mem h hvalue
    exact hinhabits
  builtIn name required literal value h := by
    cases h with
    | int _ hlow hhigh => exact .int hlow hhigh
    | intAsFloat _ | float _ => exact .float
    | string => exact .string
    | stringAsId | intAsId => exact .id
    | boolean => exact .boolean
  enum _ _ _ _ hbody hmem := .enum hbody hmem
  object name required definitions fields values hbody hnodup h hpresent := by
    rw [← h.map_fst] at hnodup hpresent
    obtain ⟨hdeclared, htyped⟩ := forall_exists_definition_iff.1 fun value hvalue => by
      obtain ⟨field, -, hname, hdefinition⟩ := exists_of_forall₂_of_mem h hvalue
      rw [hname]
      exact hdefinition
    exact .object hbody hnodup hdeclared htyped hpresent
  custom _ _ _ hcustom _ _ := .custom hcustom

theorem respects_conforms :
    Respects schema fun type literal _ => schema.Conforms type literal where
  var _ _ := .var
  null _ hnull := .null hnull
  list item required items values h := by
    refine .list fun literal hliteral => ?_
    obtain ⟨value, -, hconforms⟩ := exists_of_forall₂_of_mem h.flip hliteral
    exact hconforms
  builtIn name required literal value h := by
    cases h with
    | int hspells hlow hhigh => exact .int hspells hlow hhigh
    | intAsFloat hfound =>
        have hsome := Option.isSome_of_eq_some hfound
        obtain ⟨numeral, hspells, hfinite⟩ := Binary64.isSome_ofText?_iff.1 hsome
        exact .intAsFloat hspells hfinite
    | float hfound =>
        have hsome := Option.isSome_of_eq_some hfound
        obtain ⟨numeral, hspells, hfinite⟩ := Binary64.isSome_ofText?_iff.1 hsome
        exact .float hspells hfinite
    | string => exact .string
    | stringAsId => exact .stringAsId
    | intAsId => exact .intAsId
    | boolean => exact .boolean
  enum _ _ _ _ hbody hmem := .enum hbody hmem
  object name required definitions fields values hbody hnodup h hpresent := by
    obtain ⟨hdeclared, htyped⟩ := forall_exists_definition_iff.1 fun field hfield => by
      obtain ⟨value, -, -, hdefinition⟩ := exists_of_forall₂_of_mem h.flip hfield
      exact hdefinition
    exact .object hbody hnodup hdeclared htyped hpresent
  custom _ _ _ hcustom hnull hlist := .custom hcustom hnull hlist

/-! ## Completeness -/

variable {name : Name} {required : Bool}

theorem coerce_of_builtIn (h : BuiltIn name literal value) :
    coerce schema (.named name required) literal = .ok value := by
  have hname : ∃ type, NamedType.builtIn? name = some type := by
    cases h <;> exact ⟨_, rfl⟩
  obtain ⟨type, hname⟩ := hname
  have hleaf : coerce schema (.named name required) literal =
      leaf schema (.named name required) name literal := by
    cases h <;> simp only [coerce]
  simp only [hleaf, leaf, Schema.inputKind_of_builtIn? hname]
  exact (builtIn_eq_ok hname).2 h

theorem exists_ofText? {text : String} {numeral : Numeral} (hspells : Numeral.Spells text numeral)
    (hfinite : |numeral.value| < Binary64.overflow) :
    ∃ value, Binary64.ofText? text = some value :=
  Option.isSome_iff_exists.1 (Binary64.isSome_ofText?_iff.2 ⟨numeral, hspells, hfinite⟩)

theorem exists_coerce_object {definitions : List InputDefinition}
    {fields : List (Name × Literal)} (hbody : schema.body? name = some (.inputObject definitions))
    (hnodup : (fields.map Prod.fst).Nodup)
    (hfields : ∀ field ∈ fields, ∃ definition,
      definitions.find? (·.name = field.1) = some definition ∧
        ∃ value, coerce schema definition.type field.2 = .ok value)
    (hpresent : ∀ definition ∈ definitions, definition.isRequired = true →
      definition.name ∈ fields.map Prod.fst) :
    ∃ value, coerce schema (.named name required) (.object fields) = .ok value := by
  have hpairs : ∃ values, FieldsBy
      (fun type literal value => coerce schema type literal = .ok value) definitions fields
      values := by
    refine exists_forall₂_of_forall_mem fun field hfield => ?_
    obtain ⟨definition, hfind, value, hvalue⟩ := hfields field hfield
    exact ⟨(field.1, value), rfl, definition, hfind, hvalue⟩
  obtain ⟨values, hvalues⟩ := hpairs
  have hcoerced : coerceFields schema name definitions [] fields = .ok values :=
    coerceFields_eq_ok.2 ⟨hnodup, fun _ _ => List.not_mem_nil, hvalues⟩
  refine ⟨.object values, ?_⟩
  rw [coerce, Schema.inputKind_of_inputObject hbody]
  refine except_bind_eq_ok.2 ⟨values, hcoerced, ?_⟩
  rw [missing?_eq_none.2 hpresent]

theorem exists_coerce_custom (hcustom : schema.IsCustomScalar name) (hnull : literal ≠ .null)
    (hlist : ∀ items, literal ≠ .list items) :
    ∃ value, coerce schema (.named name required) literal = .ok value := by
  have hkind : schema.inputKind name = .anything := by
    rw [Schema.inputKind, hcustom.2, hcustom.1]
  cases literal with
  | null => exact absurd rfl hnull
  | list items => exact absurd rfl (hlist items)
  | var key => exact ⟨_, by rw [coerce]⟩
  | object fields => exact ⟨_, by rw [coerce, hkind]⟩
  | boolean _ | string _ | int _ | float _ | enum _ =>
      simp only [coerce, leaf, hkind]
      exact ⟨_, rfl⟩

/-- Coercion succeeds on every literal of the type. -/
theorem exists_coerce_of_conforms (h : schema.Conforms type literal) :
    ∃ value, coerce schema type literal = .ok value := by
  -- input objects may contain each other in circles, so the induction is on the derivation
  induction h with
  | var => exact ⟨_, by rw [coerce]⟩
  | null hnull => exact ⟨.null, by simp [coerce, hnull]⟩
  | list _ ih =>
      obtain ⟨values, hvalues⟩ := exists_forall₂_of_forall_mem ih
      refine ⟨.list values, ?_⟩
      rw [coerce]
      exact except_map_eq_ok.2 ⟨values, coerceItems_eq_ok.2 hvalues, rfl⟩
  | int hspells hlow hhigh => exact ⟨_, coerce_of_builtIn (.int hspells hlow hhigh)⟩
  | intAsFloat hspells hfinite =>
      obtain ⟨value, hvalue⟩ := exists_ofText? hspells hfinite
      exact ⟨_, coerce_of_builtIn (.intAsFloat hvalue)⟩
  | float hspells hfinite =>
      obtain ⟨value, hvalue⟩ := exists_ofText? hspells hfinite
      exact ⟨_, coerce_of_builtIn (.float hvalue)⟩
  | string => exact ⟨_, coerce_of_builtIn .string⟩
  | stringAsId => exact ⟨_, coerce_of_builtIn .stringAsId⟩
  | intAsId => exact ⟨_, coerce_of_builtIn .intAsId⟩
  | boolean => exact ⟨_, coerce_of_builtIn .boolean⟩
  | enum hbody hmem =>
      have hkind := Schema.inputKind_of_enum hbody
      simp only [coerce, leaf, hkind, if_pos hmem]
      exact ⟨_, rfl⟩
  | object hbody hnodup hdeclared _ hpresent ih =>
      have hfields := (forall_exists_definition_iff
        (P := fun type literal => ∃ value, coerce schema type literal = .ok value)).2
        ⟨hdeclared, ih⟩
      exact exists_coerce_object hbody hnodup hfields hpresent
  | custom hcustom hnull hlist => exact exists_coerce_custom hcustom hnull hlist

/-- Coercion succeeds exactly on the literals of the type, and gives a value of the type with the
outline and the variables of the literal. -/
theorem coerce_exact (schema : Schema) (type : TypeRef) (literal : Literal) :
    (∀ value, coerce schema type literal = .ok value → schema.Inhabits type value ∧
      value.outline = literal.outline ∧ value.vars = literal.vars) ∧
    ((∃ value, coerce schema type literal = .ok value) ↔ schema.Conforms type literal) := by
  refine ⟨fun value h => ⟨respects_inhabits.of_coerce h, outline_of_coerce h, vars_of_coerce h⟩,
    ?_, exists_coerce_of_conforms⟩
  rintro ⟨value, h⟩
  exact respects_conforms.of_coerce h

theorem coerce_exact_reviews :
    (∃ value, coerce Reviews.plain (.named "Review" true) Reviews.replied = .ok value ∧
      Reviews.plain.Inhabits (.named "Review" true) value ∧
        value.outline = Reviews.replied.outline ∧ value.vars = Reviews.replied.vars) ∧
    Reviews.plain.Conforms (.named "Review" true) Reviews.replied ∧
    ¬ Reviews.plain.Conforms (.named "Review" true) Reviews.twice := by
  obtain ⟨hsound, hreplied⟩ := coerce_exact Reviews.plain (.named "Review" true) Reviews.replied
  obtain ⟨-, htwice⟩ := coerce_exact Reviews.plain (.named "Review" true) Reviews.twice
  refine ⟨⟨_, Reviews.coerce_replied, hsound _ Reviews.coerce_replied⟩,
    hreplied.1 ⟨_, Reviews.coerce_replied⟩, fun hconforms => ?_⟩
  obtain ⟨value, hvalue⟩ := htwice.2 hconforms
  have hfails : coerce Reviews.plain (.named "Review" true) Reviews.twice =
      .error (.unknownField "Review" "a") := rfl
  cases hfails.symm.trans hvalue

end Coercion

end ResponseModel
