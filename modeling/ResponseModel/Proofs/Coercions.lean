import ResponseModel.Proofs.FiniteDoubles
import ResponseModel.Proofs.Listing

/-!
# Successful coercion, rule by rule

A literal that is coerced goes through one of seven rules, by its own form and by what the schema
says about the type of its position.  `Coercion.Respects` says of a relation between types, literals
and values that it is kept by all of them; such a relation holds whenever coercion succeeds
(`Respects.of_coerce`).  What a built-in scalar takes is in `Coercion.BuiltIn`, the items of a list
and the fields of an input object in `coerceItems_eq_ok` and `coerceFields_eq_ok`.
-/

namespace ResponseModel

/-! ## Kinds of input -/

namespace Schema

variable {schema : Schema} {name : Name}

/-- The name is declared a scalar and is not that of a built-in one. -/
def IsCustomScalar (schema : Schema) (name : Name) : Prop :=
  schema.body? name = some .scalar ∧ NamedType.builtIn? name = none

/-- All scalars of the schema are built in. -/
def NoCustomScalars (schema : Schema) : Prop := ∀ name, ¬ schema.IsCustomScalar name

theorem noCustomScalars_of_types (h : ∀ definition ∈ schema.types, definition.body ≠ .scalar) :
    schema.NoCustomScalars := by
  intro name hcustom
  obtain ⟨hbody, hbuiltIn⟩ := hcustom
  obtain ⟨definition, hfind, hscalar⟩ := Option.map_eq_some_iff.1 hbody
  obtain rfl := name_of_type? hfind
  rcases List.mem_append.1 (List.mem_of_find?_eq_some hfind) with hmem | hmem
  · have hscalars : ∀ definition ∈ Introspection.types, definition.body = .scalar →
        NamedType.builtIn? definition.name ≠ none := by
      simp [Introspection.types, Introspection.schemaTypes, Introspection.scalar,
        Introspection.object, Introspection.enum, NamedType.builtIn?]
    exact hscalars definition hmem hscalar hbuiltIn
  · exact h definition hmem hscalar

theorem inputKind_of_builtIn? {type : NamedType} (h : NamedType.builtIn? name = some type) :
    schema.inputKind name = .builtIn type := by
  rw [inputKind, h]

theorem inputKind_of_enum {values : List EnumValueDefinition}
    (h : schema.body? name = some (.enum values)) :
    schema.inputKind name = .symbols (values.map EnumValueDefinition.name) := by
  rw [inputKind, builtIn?_eq_none h (by simp), h]

theorem inputKind_of_inputObject {definitions : List InputDefinition}
    (h : schema.body? name = some (.inputObject definitions)) :
    schema.inputKind name = .fields definitions := by
  rw [inputKind, builtIn?_eq_none h (by simp), h]

theorem builtIn?_of_inputKind {type : NamedType} (h : schema.inputKind name = .builtIn type) :
    NamedType.builtIn? name = some type := by
  unfold inputKind at h
  split at h
  · next hbuiltIn => rw [hbuiltIn, InputKind.builtIn.inj h]
  · split at h <;> cases h

theorem isCustomScalar_of_inputKind (h : schema.inputKind name = .anything) :
    schema.IsCustomScalar name := by
  unfold inputKind at h
  split at h
  · cases h
  · next hbuiltIn =>
      split at h <;> cases h
      exact ⟨by assumption, hbuiltIn⟩

theorem enum_of_inputKind {symbols : List Name} (h : schema.inputKind name = .symbols symbols) :
    ∃ values, schema.body? name = some (.enum values) ∧
      symbols = values.map EnumValueDefinition.name := by
  unfold inputKind at h
  split at h
  · cases h
  · split at h <;> cases h
    exact ⟨_, by assumption, rfl⟩

theorem inputObject_of_inputKind {definitions : List InputDefinition}
    (h : schema.inputKind name = .fields definitions) :
    schema.body? name = some (.inputObject definitions) := by
  unfold inputKind at h
  split at h
  · cases h
  · split at h <;> cases h
    assumption

end Schema

namespace Coercion

variable {schema : Schema}

/-! ## Built-in scalars -/

/-- What the built-in scalars take, and what becomes of it. -/
inductive BuiltIn : Name → Literal → Value → Prop
  | int {text : String} {value : Int} : Numeral.SpellsInt text value → -2 ^ 31 ≤ value →
      value < 2 ^ 31 → BuiltIn "Int" (.int text) (.int value)
  | intAsFloat {text : String} {value : Binary64} : Binary64.ofText? text = some value →
      BuiltIn "Float" (.int text) (.float value)
  | float {text : String} {value : Binary64} : Binary64.ofText? text = some value →
      BuiltIn "Float" (.float text) (.float value)
  | string {content : String} : BuiltIn "String" (.string content) (.string content)
  | stringAsId {content : String} : BuiltIn "ID" (.string content) (.string content)
  | intAsId {text : String} : BuiltIn "ID" (.int text) (.string text)
  | boolean {value : Bool} : BuiltIn "Boolean" (.boolean value) (.boolean value)

theorem number_eq_ok {α : Type} {expected : NamedType} {text : String} {make : α → Value}
    {found : Option α} {value : Value} :
    number expected text make found = .ok value ↔ ∃ a, found = some a ∧ make a = value := by
  cases found <;> simp [number]

theorem builtIn_eq_ok {expected : TypeRef} {name : Name} {type : NamedType} {literal : Literal}
    {value : Value} (hname : NamedType.builtIn? name = some type) :
    builtIn expected type literal = .ok value ↔ BuiltIn name literal value := by
  obtain rfl := NamedType.name_of_builtIn? hname
  constructor
  · intro h
    unfold builtIn at h
    split at h
    · obtain ⟨found, hfound, rfl⟩ := number_eq_ok.1 h
      obtain ⟨hspells, hlow, hhigh⟩ := Numeral.int32OfText?_eq_some_iff.1 hfound
      exact .int hspells hlow hhigh
    · obtain ⟨found, hfound, rfl⟩ := number_eq_ok.1 h
      exact .intAsFloat hfound
    · obtain ⟨found, hfound, rfl⟩ := number_eq_ok.1 h
      exact .float hfound
    · obtain rfl := Except.ok.inj h
      exact .string
    · obtain rfl := Except.ok.inj h
      exact .stringAsId
    · obtain rfl := Except.ok.inj h
      exact .intAsId
    · obtain rfl := Except.ok.inj h
      exact .boolean
    · cases h
  · generalize htype : type.name = name
    intro h
    rw [htype] at hname
    cases h with
    | int hspells hlow hhigh =>
        obtain rfl := Option.some.inj hname
        exact number_eq_ok.2 ⟨_, Numeral.int32OfText?_eq_some_iff.2 ⟨hspells, hlow, hhigh⟩, rfl⟩
    | intAsFloat hfound =>
        obtain rfl := Option.some.inj hname
        exact number_eq_ok.2 ⟨_, hfound, rfl⟩
    | float hfound =>
        obtain rfl := Option.some.inj hname
        exact number_eq_ok.2 ⟨_, hfound, rfl⟩
    | string | stringAsId | intAsId | boolean =>
        obtain rfl := Option.some.inj hname
        rfl

/-! ## Lists and objects -/

theorem coerceItems_eq_ok {item : TypeRef} {items : List Literal} {values : List Value} :
    coerceItems schema item items = .ok values ↔
      List.Forall₂ (fun literal value => coerce schema item literal = .ok value) items values := by
  induction items generalizing values with
  | nil => simp [coerceItems, eq_comm]
  | cons literal rest ih =>
      rw [coerceItems, except_bind_eq_ok, List.forall₂_cons_left_iff]
      constructor
      · rintro ⟨value, hvalue, h⟩
        obtain ⟨others, hothers, h⟩ := except_bind_eq_ok.1 h
        exact ⟨value, others, hvalue, ih.1 hothers, (Except.ok.inj h).symm⟩
      · rintro ⟨value, others, hvalue, hothers, rfl⟩
        exact ⟨value, hvalue, except_bind_eq_ok.2 ⟨others, ih.2 hothers, rfl⟩⟩

/-- The values have the names of the fields, and each is related to its field at the type that the
field has by its definition. -/
def FieldsBy (P : TypeRef → Literal → Value → Prop) (definitions : List InputDefinition)
    (fields : List (Name × Literal)) (values : List (Name × Value)) : Prop :=
  List.Forall₂ (fun field value => value.1 = field.1 ∧ ∃ definition,
    definitions.find? (·.name = field.1) = some definition ∧
      P definition.type field.2 value.2) fields values

/-- Fields are coerced exactly if they are new, have different names, and each of them is defined
and can be coerced. -/
theorem coerceFields_eq_ok {object : Name} {definitions : List InputDefinition}
    {before : List Name} {fields : List (Name × Literal)} {values : List (Name × Value)} :
    coerceFields schema object definitions before fields = .ok values ↔
      (fields.map Prod.fst).Nodup ∧ (∀ field ∈ fields, field.1 ∉ before) ∧
        FieldsBy (fun type literal value => coerce schema type literal = .ok value) definitions
          fields values := by
  induction fields generalizing before values with
  | nil => simp [coerceFields, FieldsBy, eq_comm]
  | cons field rest ih =>
      obtain ⟨name, literal⟩ := field
      rw [coerceFields, List.map_cons, List.nodup_cons, List.forall_mem_cons, FieldsBy,
        List.forall₂_cons_left_iff]
      by_cases hbefore : name ∈ before
      · simp [hbefore]
      rw [if_neg hbefore]
      constructor
      · intro h
        split at h
        · cases h
        · next definition hfind =>
            obtain ⟨value, hvalue, h⟩ := except_bind_eq_ok.1 h
            obtain ⟨others, hothers, h⟩ := except_bind_eq_ok.1 h
            obtain ⟨hnodup, hnew, hfields⟩ := ih.1 hothers
            refine ⟨⟨?_, hnodup⟩, ⟨hbefore, fun other hother => ?_⟩, (name, value), others,
              ⟨rfl, definition, hfind, hvalue⟩, hfields, (Except.ok.inj h).symm⟩
            · rw [List.mem_map]
              rintro ⟨other, hother, hname⟩
              exact hnew other hother (hname ▸ List.mem_cons_self)
            · exact fun hmem => hnew other hother (List.mem_cons_of_mem name hmem)
      · rintro ⟨⟨hname, hnodup⟩, ⟨-, hnew⟩, ⟨key, value⟩, others, ⟨hkey, definition, hfind, hvalue⟩,
          hfields, rfl⟩
        obtain rfl : key = name := hkey
        have hlater : ∀ other ∈ rest, other.1 ∉ key :: before := by
          intro other hother
          rw [List.mem_cons, not_or]
          refine ⟨fun heq => hname ?_, hnew other hother⟩
          exact List.mem_map.2 ⟨other, hother, heq⟩
        have hothers := ih.2 ⟨hnodup, hlater, hfields⟩
        simp only [hfind]
        exact except_bind_eq_ok.2 ⟨value, hvalue, except_bind_eq_ok.2 ⟨others, hothers, rfl⟩⟩

theorem FieldsBy.map_fst {P : TypeRef → Literal → Value → Prop}
    {definitions : List InputDefinition} {fields : List (Name × Literal)}
    {values : List (Name × Value)} (h : FieldsBy P definitions fields values) :
    values.map Prod.fst = fields.map Prod.fst := by
  induction h with
  | nil => rfl
  | cons hfield _ ih => rw [List.map_cons, List.map_cons, hfield.1, ih]

theorem missing?_eq_none {definitions : List InputDefinition} {given : List Name} :
    missing? definitions given = none ↔
      ∀ definition ∈ definitions, definition.isRequired = true → definition.name ∈ given := by
  simp [missing?]

end Coercion

/-! ## The rules -/

/-- A statement about literals holds if it passes from the parts of a literal to the literal. -/
theorem Literal.induction {P : Literal → Prop}
    (h : ∀ literal, (∀ items, literal = .list items → ∀ item ∈ items, P item) →
      (∀ fields, literal = .object fields → ∀ field ∈ fields, P field.2) → P literal)
    (literal : Literal) : P literal :=
  h literal (fun _items _hlist item _hitem => induction h item)
    fun _fields _hobject field _hfield => induction h field.2
termination_by sizeOf literal
decreasing_by
  · have hitem := List.sizeOf_lt_of_mem _hitem
    subst _hlist
    simp only [list.sizeOf_spec]
    omega
  · have hfield := List.sizeOf_lt_of_mem _hfield
    subst _hobject
    obtain ⟨name, value⟩ := field
    simp only [object.sizeOf_spec, Prod.mk.sizeOf_spec] at *
    omega

namespace Coercion

variable {schema : Schema}

/-- The relation holds of what is coerced by each of the rules, if it holds of the parts. -/
structure Respects (schema : Schema) (P : TypeRef → Literal → Value → Prop) : Prop where
  var : ∀ type name, P type (.var name) (.var name)
  null : ∀ type : TypeRef, type.isRequired = false → P type .null .null
  list : ∀ item required items values, List.Forall₂ (P item) items values →
    P (.list item required) (.list items) (.list values)
  builtIn : ∀ name required literal value, BuiltIn name literal value →
    P (.named name required) literal value
  enum : ∀ name required values symbol, schema.body? name = some (.enum values) →
    symbol ∈ values.map EnumValueDefinition.name → P (.named name required) (.enum symbol)
      (.enum symbol)
  object : ∀ name required definitions fields values,
    schema.body? name = some (.inputObject definitions) → (fields.map Prod.fst).Nodup →
    FieldsBy P definitions fields values →
    (∀ definition ∈ definitions, definition.isRequired = true →
      definition.name ∈ fields.map Prod.fst) →
    P (.named name required) (.object fields) (.object values)
  custom : ∀ name required literal, schema.IsCustomScalar name → literal ≠ .null →
    (∀ items, literal ≠ .list items) → P (.named name required) literal literal.verbatim

variable {P : TypeRef → Literal → Value → Prop}

theorem Respects.of_leaf (h : Respects schema P) {name : Name} {required : Bool}
    {literal : Literal} {value : Value} (hnull : literal ≠ .null)
    (hlist : ∀ items, literal ≠ .list items)
    (hleaf : leaf schema (.named name required) name literal = .ok value) :
    P (.named name required) literal value := by
  unfold leaf at hleaf
  split at hleaf
  · next hkind =>
      exact h.builtIn _ _ _ _ ((builtIn_eq_ok (Schema.builtIn?_of_inputKind hkind)).1 hleaf)
  · next hkind =>
      obtain rfl := Except.ok.inj hleaf
      exact h.custom _ _ _ (Schema.isCustomScalar_of_inputKind hkind) hnull hlist
  · next hkind =>
      obtain ⟨values, hbody, rfl⟩ := Schema.enum_of_inputKind hkind
      split at hleaf
      · next hmem =>
          obtain rfl := Except.ok.inj hleaf
          exact h.enum _ _ _ _ hbody hmem
      · cases hleaf
  · cases hleaf
  · cases hleaf

theorem Respects.of_object (h : Respects schema P) {name : Name} {required : Bool}
    {fields : List (Name × Literal)} {value : Value}
    (hparts : ∀ field ∈ fields, ∀ type value, coerce schema type field.2 = .ok value →
      P type field.2 value)
    (hcoerce : coerce schema (.named name required) (.object fields) = .ok value) :
    P (.named name required) (.object fields) value := by
  rw [coerce] at hcoerce
  split at hcoerce
  · next hkind =>
      obtain rfl := Except.ok.inj hcoerce
      exact h.custom _ _ _ (Schema.isCustomScalar_of_inputKind hkind) (by simp) (by simp)
  · next definitions hkind =>
      obtain ⟨values, hvalues, hcoerce⟩ := except_bind_eq_ok.1 hcoerce
      obtain ⟨hnodup, -, hfields⟩ := coerceFields_eq_ok.1 hvalues
      split at hcoerce
      · cases hcoerce
      · next hmissing =>
          obtain rfl := Except.ok.inj hcoerce
          have hkept : FieldsBy P definitions fields values := by
            refine forall₂_imp_of_mem hfields fun field hfield value hvalue => ?_
            obtain ⟨hname, definition, hfind, hvalue⟩ := hvalue
            exact ⟨hname, definition, hfind, hparts field hfield _ _ hvalue⟩
          exact h.object _ _ _ _ _ (Schema.inputObject_of_inputKind hkind) hnodup hkept
            (missing?_eq_none.1 hmissing)
  · cases hcoerce
  · cases hcoerce

/-- What is kept by the rules holds whenever coercion succeeds. -/
theorem Respects.of_coerce (h : Respects schema P) {type : TypeRef} {literal : Literal}
    {value : Value} (hcoerce : coerce schema type literal = .ok value) : P type literal value := by
  induction literal using Literal.induction generalizing type value with
  | h literal hitems hfields =>
      cases literal with
      | var name =>
          rw [coerce] at hcoerce
          obtain rfl := Except.ok.inj hcoerce
          exact h.var type name
      | null =>
          rw [coerce] at hcoerce
          split at hcoerce
          · cases hcoerce
          · next hrequired =>
              obtain rfl := Except.ok.inj hcoerce
              exact h.null type (Bool.not_eq_true _ ▸ hrequired)
      | list items =>
          cases type with
          | named name required =>
              rw [coerce] at hcoerce
              cases hcoerce
          | list item required =>
              rw [coerce] at hcoerce
              obtain ⟨values, hvalues, rfl⟩ := except_map_eq_ok.1 hcoerce
              have hkept : List.Forall₂ (P item) items values :=
                forall₂_imp_of_mem (coerceItems_eq_ok.1 hvalues)
                  fun part hpart _ hvalue => hitems items rfl part hpart hvalue
              exact h.list item required items values hkept
      | object fields =>
          cases type with
          | named name required =>
              exact h.of_object (fun field hfield _ _ => hfields fields rfl field hfield) hcoerce
          | list item required => simp [coerce] at hcoerce
      | boolean _ | string _ | int _ | float _ | enum _ =>
          cases type with
          | named name required =>
              simp only [coerce] at hcoerce
              exact h.of_leaf (by simp) (by simp) hcoerce
          | list item required => simp [coerce] at hcoerce

end Coercion

end ResponseModel
