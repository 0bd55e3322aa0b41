import Mathlib.Data.List.Nodup
import Mathlib.Data.List.Perm.Subperm
import ResponseModel.Model
import ResponseModel.Proofs.Trees

/-!
# Listing declarations

Input objects are listed in rounds: each round lists those that are needed and not listed yet, and
the types of their fields are needed from then on.  `Declarations.Used` is the least set of names
that has some names to start from and, with every input object, the names of the types of its
fields.

A step of the listing keeps `Listing.Valid` (`Valid.add`), and so does a round (`Valid.addAll`).
Every round lists a declaration of the schema that was not listed before, so the rounds come to an
end within the bound (`Valid.complete`), and then exactly the used types are needed
(`Valid.mem_types_iff`).  Main statement: `Declarations.listsUsed_of_ofMarks`, the declarations that
are listed are the used ones, in the order of the schema.
-/

namespace ResponseModel

/-! ## Needed types -/

/-- The type is declared along with a model that uses it. -/
def NamedType.needsDeclaration : NamedType → Bool
  | .inputObject _ | .enum _ | .customScalar _ => true
  | _ => false

namespace NeededTypes

variable {needed : NeededTypes} {type : NamedType} {name : Name}

/-- The needed types with their kinds. -/
def types (needed : NeededTypes) : List NamedType :=
  needed.inputObjects.map .inputObject ++ needed.enums.map .enum ++
    needed.customScalars.map .customScalar

@[simp] theorem mem_types_inputObject :
    .inputObject name ∈ needed.types ↔ name ∈ needed.inputObjects := by
  simp [types]

@[simp] theorem mem_types_enum : .enum name ∈ needed.types ↔ name ∈ needed.enums := by
  simp [types]

@[simp] theorem mem_types_customScalar :
    .customScalar name ∈ needed.types ↔ name ∈ needed.customScalars := by
  simp [types]

theorem mem_types_add {added : NamedType} :
    type ∈ (needed.add added).types ↔
      type ∈ needed.types ∨ type = added ∧ added.needsDeclaration = true := by
  cases added <;> cases type <;> simp [add, types, mem_insertNew, NamedType.needsDeclaration]

theorem mem_types_addAll {added : List NamedType} :
    type ∈ (needed.addAll added).types ↔
      type ∈ needed.types ∨ type ∈ added ∧ type.needsDeclaration = true := by
  induction added generalizing needed with
  | nil => simp [addAll]
  | cons first rest ih =>
      have hstep : needed.addAll (first :: rest) = (needed.add first).addAll rest := rfl
      rw [hstep, ih, mem_types_add]
      grind

theorem types_subset_addAll (added : List NamedType) :
    needed.types ⊆ (needed.addAll added).types :=
  fun _ htype => mem_types_addAll.2 (.inl htype)

theorem inputObjects_subset_addAll (added : List NamedType) :
    needed.inputObjects ⊆ (needed.addAll added).inputObjects := by
  intro name hname
  have hmem := types_subset_addAll added (mem_types_inputObject.2 hname)
  exact mem_types_inputObject.1 hmem

theorem nodup_inputObjects_add (h : needed.inputObjects.Nodup) (added : NamedType) :
    (needed.add added).inputObjects.Nodup := by
  cases added with
  | inputObject name => exact nodup_insertNew h name
  | _ => exact h

theorem nodup_inputObjects_addAll (h : needed.inputObjects.Nodup) (added : List NamedType) :
    (needed.addAll added).inputObjects.Nodup := by
  induction added generalizing needed with
  | nil => exact h
  | cons first rest ih => exact ih (nodup_inputObjects_add h first)

end NeededTypes

/-- The type that a declaration declares, if it is of a kind that needs a declaration. -/
def TypeDefinition.declared? (definition : TypeDefinition) : Option NamedType :=
  match definition.body with
  | .inputObject _ => some (.inputObject definition.name)
  | .enum _ => some (.enum definition.name)
  | .scalar => some (.customScalar definition.name)
  | _ => none

theorem TypeDefinition.needsDeclaration_of_declared? {definition : TypeDefinition}
    {type : NamedType} (h : definition.declared? = some type) : type.needsDeclaration = true := by
  unfold declared? at h
  split at h
  · obtain rfl := Option.some.inj h
    rfl
  · obtain rfl := Option.some.inj h
    rfl
  · obtain rfl := Option.some.inj h
    rfl
  · nomatch h

namespace NeededTypes

variable {needed : NeededTypes} {config : Config}

theorem addConfigured_eq (definition : TypeDefinition) :
    addConfigured config needed definition =
      if config.alwaysGenerates definition.name then
        (definition.declared?.elim needed needed.add)
      else needed := by
  obtain ⟨name, description, directives, body⟩ := definition
  cases body <;> rfl

theorem mem_types_addConfigured {type : NamedType} {definition : TypeDefinition} :
    type ∈ (addConfigured config needed definition).types ↔
      type ∈ needed.types ∨
        config.alwaysGenerates definition.name = true ∧ definition.declared? = some type := by
  rw [addConfigured_eq]
  by_cases hconfig : config.alwaysGenerates definition.name = true
  · cases hdeclared : definition.declared? with
    | none => simp [hconfig]
    | some declared =>
        have hneeds := TypeDefinition.needsDeclaration_of_declared? hdeclared
        simp [hconfig, mem_types_add, hneeds, eq_comm]
  · simp [hconfig]

theorem mem_types_foldl_addConfigured {type : NamedType} {definitions : List TypeDefinition} :
    type ∈ (definitions.foldl (addConfigured config) needed).types ↔
      type ∈ needed.types ∨ ∃ definition ∈ definitions,
        config.alwaysGenerates definition.name = true ∧ definition.declared? = some type := by
  induction definitions generalizing needed with
  | nil => simp
  | cons first rest ih => simp [ih, mem_types_addConfigured, or_assoc]

theorem nodup_inputObjects_foldl_addConfigured (h : needed.inputObjects.Nodup)
    (definitions : List TypeDefinition) :
    (definitions.foldl (addConfigured config) needed).inputObjects.Nodup := by
  induction definitions generalizing needed with
  | nil => exact h
  | cons first rest ih =>
      refine ih ?_
      rw [addConfigured_eq]
      split
      · cases first.declared? with
        | none => exact h
        | some declared => exact nodup_inputObjects_add h declared
      · exact h

end NeededTypes

/-! ## Declarations of a schema -/

namespace Schema

variable {schema : Schema} {definition : TypeDefinition}

/-- The declarations of a schema, the built-in ones among them, have different names. -/
def NamesOnce (schema : Schema) : Prop := (schema.allTypes.map TypeDefinition.name).Nodup

theorem name_of_type? {name : Name} (h : schema.type? name = some definition) :
    definition.name = name := by
  simpa using List.find?_some h

theorem NamesOnce.type?_eq_some_of_mem_allTypes (h : schema.NamesOnce)
    (hmem : definition ∈ schema.allTypes) : schema.type? definition.name = some definition := by
  cases hfind : schema.type? definition.name with
  | none => simpa using List.find?_eq_none.1 hfind definition hmem
  | some found =>
      rw [List.inj_on_of_nodup_map h (List.mem_of_find?_eq_some hfind) hmem (name_of_type? hfind)]

theorem NamesOnce.type?_eq_some (h : schema.NamesOnce) (hmem : definition ∈ schema.types) :
    schema.type? definition.name = some definition :=
  h.type?_eq_some_of_mem_allTypes (List.mem_append_right _ hmem)

theorem mem_names_of_builtIn? {name : Name} {type : NamedType}
    (h : NamedType.builtIn? name = some type) :
    name ∈ ["String", "Int", "Float", "Boolean", "ID"] := by
  unfold NamedType.builtIn? at h
  split_ifs at h <;> simp_all

/-- No declaration of the schema's own has the name of a built-in scalar. -/
theorem NamesOnce.builtIn?_eq_none (h : schema.NamesOnce) (hmem : definition ∈ schema.types) :
    NamedType.builtIn? definition.name = none := by
  cases hbuiltIn : NamedType.builtIn? definition.name with
  | none => rfl
  | some type =>
      have hnames : ∀ name ∈ ["String", "Int", "Float", "Boolean", "ID"],
          name ∈ Introspection.types.map TypeDefinition.name := by decide +kernel
      rw [NamesOnce, allTypes, List.map_append] at h
      exact absurd rfl ((List.nodup_append.1 h).2.2 _ (hnames _ (mem_names_of_builtIn? hbuiltIn)) _
        (List.mem_map_of_mem hmem))

/-- The name of a built-in scalar is declared a scalar, whatever else the schema declares. -/
theorem body?_of_builtIn? {name : Name} {type : NamedType}
    (h : NamedType.builtIn? name = some type) : schema.body? name = some .scalar := by
  -- the built-in declarations come first
  have hscalar : ∀ name ∈ ["String", "Int", "Float", "Boolean", "ID"],
      (Introspection.types.find? (·.name = name)).map TypeDefinition.body = some .scalar := by
    simp only [List.forall_mem_cons]
    exact ⟨rfl, rfl, rfl, rfl, rfl, List.forall_mem_nil _⟩
  have hname := hscalar name (mem_names_of_builtIn? h)
  obtain ⟨found, hfind, hfound⟩ := Option.map_eq_some_iff.1 hname
  rw [body?, type?, allTypes, List.find?_append, hfind]
  exact congrArg some hfound

/-- A name that is not declared a scalar is not that of a built-in one. -/
theorem builtIn?_eq_none {name : Name} {body : TypeBody} (h : schema.body? name = some body)
    (hne : body ≠ .scalar) : NamedType.builtIn? name = none := by
  cases hbuiltIn : NamedType.builtIn? name with
  | none => rfl
  | some type => exact absurd (Option.some.inj (h.symm.trans (body?_of_builtIn? hbuiltIn))) hne

/-- An input object is not a built-in scalar. -/
theorem namedType_of_inputFields? {name : Name} {fields : List InputDefinition}
    (h : schema.inputFields? name = some fields) :
    schema.namedType name = .ok (.inputObject name) := by
  have hbody : schema.body? name = some (.inputObject fields) := by
    unfold inputFields? at h
    split at h
    · next hbody => rw [hbody, Option.some.inj h]
    · nomatch h
  have hbuiltIn := builtIn?_eq_none hbody (by simp)
  simp [namedType, hbuiltIn, hbody]

/-- A declaration of the schema's own declares the type that its name stands for. -/
theorem NamesOnce.declared?_eq_some_iff (h : schema.NamesOnce) (hmem : definition ∈ schema.types)
    {type : NamedType} : definition.declared? = some type ↔
      type.needsDeclaration = true ∧ schema.namedType definition.name = .ok type := by
  have htype := h.type?_eq_some hmem
  have hbuiltIn := h.builtIn?_eq_none hmem
  simp only [namedType, hbuiltIn, body?, htype, Option.map_some, TypeDefinition.declared?]
  cases definition.body <;> cases type <;> simp [NamedType.needsDeclaration]

end Schema

namespace Declarations

variable {schema : Schema} {Root : Name → Prop}

/-! ## Input objects -/

theorem inputFields_eq_ok {definitions : List InputDefinition} {fields : List InputField} :
    inputFields schema definitions = .ok fields ↔
      List.Forall₂ (fun definition field => inputField schema definition = .ok field)
        definitions fields := by
  induction definitions generalizing fields with
  | nil => simp [inputFields, eq_comm]
  | cons first rest ih =>
      simp only [inputFields, except_bind_eq_ok, List.forall₂_cons_left_iff, ih, Except.ok.injEq]
      grind

theorem modelType_of_inputField {definition : InputDefinition} {field : InputField}
    (h : inputField schema definition = .ok field) :
    schema.modelType definition.type = .ok field.type := by
  obtain ⟨defaultValue, -, h⟩ := except_bind_eq_ok.1 h
  obtain ⟨type, htype, h⟩ := except_bind_eq_ok.1 h
  obtain rfl := Except.ok.inj h
  cases hmodel : schema.modelType definition.type with
  | error error => simp [hmodel, Except.mapError] at htype
  | ok found => simp_all [Except.mapError]

/-- The input object is the one that the declaration declares, with its fields resolved and their
defaults coerced. -/
def DeclaresInputObject (schema : Schema) (definition : TypeDefinition) (object : InputObject) :
    Prop :=
  ∃ definitions, definition.body = .inputObject definitions ∧ object.name = definition.name ∧
    object.description = definition.description ∧
    object.deprecationReason = deprecationReason? definition.directives ∧
    inputFields schema definitions = .ok object.fields

theorem inputObject_eq_ok {name : Name} {object : InputObject} :
    inputObject schema name = .ok object ↔
      ∃ definition, schema.type? name = some definition ∧
        DeclaresInputObject schema definition object := by
  unfold inputObject
  constructor
  · intro h
    split at h
    · next found description directives definitions htype =>
        have hname : found = name := Schema.name_of_type? htype
        obtain ⟨fields, hfields, h⟩ := except_bind_eq_ok.1 h
        obtain rfl := Except.ok.inj h
        exact ⟨_, htype, definitions, rfl, hname.symm, rfl, rfl, hfields⟩
    · nomatch h
  · rintro ⟨⟨found, description, directives, body⟩, htype, definitions, hbody, hname, hdescription,
      hreason, hfields⟩
    have hfound : found = name := Schema.name_of_type? htype
    obtain ⟨own, ownDescription, ownReason, ownFields⟩ := object
    subst hfound hbody
    simp only at hname hdescription hreason hfields
    subst hname hdescription hreason
    simp only [htype, hfields]
    rfl

/-! ## Used types -/

/-- The least set of names that contains the roots and, with an input object, the names of the types
of its fields. -/
inductive Used (schema : Schema) (Root : Name → Prop) : Name → Prop
  | root {name : Name} : Root name → Used schema Root name
  | inputField {name : Name} {definitions : List InputDefinition} {definition : InputDefinition} :
      Used schema Root name → schema.inputFields? name = some definitions →
      definition ∈ definitions → Used schema Root definition.type.innerName

/-- The type has a used name, is of the kind that the schema gives the name, and needs a
declaration. -/
structure Needs (schema : Schema) (Root : Name → Prop) (type : NamedType) : Prop where
  needsDeclaration : type.needsDeclaration = true
  namedType : schema.namedType type.name = .ok type
  used : Used schema Root type.name

/-- The types of the fields of an input object are resolved, and used because it is. -/
theorem needs_of_mem_fields {object : InputObject}
    (hobject : inputObject schema object.name = .ok object) (hused : Used schema Root object.name)
    {field : InputField} (hfield : field ∈ object.fields)
    (hneeds : field.type.leaf.needsDeclaration = true) : Needs schema Root field.type.leaf := by
  obtain ⟨definition, htype, definitions, hbody, -, -, -, hfields⟩ := inputObject_eq_ok.1 hobject
  have hinput : schema.inputFields? object.name = some definitions := by
    simp [Schema.inputFields?, Schema.body?, htype, hbody]
  obtain ⟨written, hwritten, hmade⟩ :=
    exists_of_forall₂_of_mem (inputFields_eq_ok.1 hfields) hfield
  have hmodel := modelType_of_inputField hmade
  have hleaf : field.type.leaf.name = written.type.innerName :=
    Schema.leafName_of_modelType hmodel
  refine ⟨hneeds, ?_, ?_⟩
  · rw [hleaf]
    exact Schema.namedType_of_modelType hmodel
  · rw [hleaf]
    exact .inputField hused hinput hwritten

/-! ## Steps and rounds -/

namespace Listing

variable {listing : Listing}

theorem mem_pending {name : Name} : name ∈ listing.pending ↔
    name ∈ listing.needed.inputObjects ∧ name ∉ listing.listed.map InputObject.name := by
  simp [Listing.pending]

/-- When nothing is pending, a needed input object is listed. -/
theorem mem_listed (hpending : listing.pending = []) {name : Name}
    (h : name ∈ listing.needed.inputObjects) : name ∈ listing.listed.map InputObject.name := by
  by_contra hnot
  have hmem := mem_pending.2 ⟨h, hnot⟩
  rw [hpending] at hmem
  exact absurd hmem List.not_mem_nil

end Listing

/-- What is known while input objects are listed: only used types are needed, among them those of
the roots and those of the fields of listed input objects, and nothing is listed twice. -/
structure Listing.Valid (schema : Schema) (Root : Name → Prop) (listing : Listing) : Prop where
  needs : ∀ type ∈ listing.needed.types, Needs schema Root type
  roots : ∀ type : NamedType, type.needsDeclaration = true →
    schema.namedType type.name = .ok type → Root type.name → type ∈ listing.needed.types
  fields : ∀ object ∈ listing.listed, ∀ field ∈ object.fields,
    field.type.leaf.needsDeclaration = true → field.type.leaf ∈ listing.needed.types
  made : ∀ object ∈ listing.listed, inputObject schema object.name = .ok object
  listed : ∀ object ∈ listing.listed, object.name ∈ listing.needed.inputObjects
  nodup_listed : (listing.listed.map InputObject.name).Nodup
  nodup_needed : listing.needed.inputObjects.Nodup

namespace Listing.Valid

variable {listing listing' final : Listing}

/-- Before anything is listed, the types of the roots are needed. -/
theorem of_roots {needed : NeededTypes} (hneeded : ∀ type : NamedType, type ∈ needed.types ↔
      type.needsDeclaration = true ∧ schema.namedType type.name = .ok type ∧ Root type.name)
    (hnodup : needed.inputObjects.Nodup) : Listing.Valid schema Root ⟨needed, []⟩ where
  needs := fun type htype =>
    have hroot := (hneeded type).1 htype
    ⟨hroot.1, hroot.2.1, .root hroot.2.2⟩
  roots := fun type hneeds hnamed hroot => (hneeded type).2 ⟨hneeds, hnamed, hroot⟩
  fields := fun _ hobject => absurd hobject List.not_mem_nil
  made := fun _ hobject => absurd hobject List.not_mem_nil
  listed := fun _ hobject => absurd hobject List.not_mem_nil
  nodup_listed := List.nodup_nil
  nodup_needed := hnodup

/-- Listing an input object makes the types of its fields needed. -/
theorem add (hvalid : listing.Valid schema Root) {name : Name}
    (hneeded : name ∈ listing.needed.inputObjects)
    (hnew : name ∉ listing.listed.map InputObject.name)
    (h : listing.add schema name = .ok listing') :
    listing'.Valid schema Root ∧
      listing'.listed.map InputObject.name = listing.listed.map InputObject.name ++ [name] ∧
      listing.needed.inputObjects ⊆ listing'.needed.inputObjects := by
  obtain ⟨object, hobject, h⟩ := except_bind_eq_ok.1 h
  obtain rfl := Except.ok.inj h
  obtain ⟨definition, htype, definitions, -, hname, -⟩ := inputObject_eq_ok.1 hobject
  obtain rfl : object.name = name := hname.trans (Schema.name_of_type? htype)
  have hused := (hvalid.needs (.inputObject object.name) (by simpa using hneeded)).used
  have hmono := listing.needed.types_subset_addAll
    (object.fields.map fun field => field.type.leaf)
  have hsub := listing.needed.inputObjects_subset_addAll
    (object.fields.map fun field => field.type.leaf)
  refine ⟨⟨?_, ?_, ?_, ?_, ?_, ?_, ?_⟩, by simp, hsub⟩
  · intro type htype
    rcases NeededTypes.mem_types_addAll.1 htype with htype | ⟨hmem, hneeds⟩
    · exact hvalid.needs type htype
    · obtain ⟨field, hfield, rfl⟩ := List.mem_map.1 hmem
      exact needs_of_mem_fields hobject hused hfield hneeds
  · intro type hneeds hnamed hroot
    exact hmono (hvalid.roots type hneeds hnamed hroot)
  · intro other hother field hfield hneeds
    rcases List.mem_append.1 hother with hother | hother
    · exact hmono (hvalid.fields other hother field hfield hneeds)
    · rw [List.mem_singleton.1 hother] at hfield
      exact NeededTypes.mem_types_addAll.2
        (.inr ⟨List.mem_map.2 ⟨field, hfield, rfl⟩, hneeds⟩)
  · intro other hother
    rcases List.mem_append.1 hother with hother | hother
    · exact hvalid.made other hother
    · rw [List.mem_singleton.1 hother]
      exact hobject
  · intro other hother
    rcases List.mem_append.1 hother with hother | hother
    · exact hsub (hvalid.listed other hother)
    · rw [List.mem_singleton.1 hother]
      exact hsub hneeded
  · rw [List.map_append, List.nodup_append]
    refine ⟨hvalid.nodup_listed, by simp, ?_⟩
    intro x hx y hy
    rw [List.mem_singleton.1 hy]
    rintro rfl
    exact hnew hx
  · exact NeededTypes.nodup_inputObjects_addAll hvalid.nodup_needed _

/-- A round lists its names one after the other. -/
theorem addAll (hvalid : listing.Valid schema Root) {names : List Name} (hnodup : names.Nodup)
    (hneeded : ∀ name ∈ names, name ∈ listing.needed.inputObjects)
    (hnew : ∀ name ∈ names, name ∉ listing.listed.map InputObject.name)
    (h : names.foldlM (Listing.add schema) listing = .ok listing') :
    listing'.Valid schema Root ∧
      listing'.listed.map InputObject.name = listing.listed.map InputObject.name ++ names := by
  induction names generalizing listing with
  | nil =>
      obtain rfl := Except.ok.inj h
      exact ⟨hvalid, (List.append_nil _).symm⟩
  | cons name rest ih =>
      rw [List.foldlM_cons] at h
      obtain ⟨next, hnext, h⟩ := except_bind_eq_ok.1 h
      obtain ⟨hname, hrest⟩ := List.nodup_cons.1 hnodup
      obtain ⟨hvalid', hlisted, hsub⟩ := hvalid.add (hneeded name List.mem_cons_self)
        (hnew name List.mem_cons_self) hnext
      have hnew' : ∀ other ∈ rest, other ∉ next.listed.map InputObject.name := by
        intro other hother
        rw [hlisted, List.mem_append, List.mem_singleton, not_or]
        refine ⟨hnew other (List.mem_cons_of_mem _ hother), ?_⟩
        rintro rfl
        exact hname hother
      obtain ⟨hfinal, heq⟩ := ih hvalid' hrest
        (fun other hother => hsub (hneeded other (List.mem_cons_of_mem _ hother))) hnew' h
      refine ⟨hfinal, ?_⟩
      rw [heq, hlisted, List.append_assoc, List.singleton_append]

/-- The listed input objects are declarations of the schema, so there are not more of them. -/
theorem length_listed_le (hvalid : listing.Valid schema Root) :
    listing.listed.length ≤ schema.allTypes.length := by
  have hsub : listing.listed.map InputObject.name ⊆ schema.allTypes.map TypeDefinition.name := by
    intro name hname
    obtain ⟨object, hobject, rfl⟩ := List.mem_map.1 hname
    obtain ⟨definition, htype, -⟩ := inputObject_eq_ok.1 (hvalid.made object hobject)
    rw [← Schema.name_of_type? htype]
    exact List.mem_map_of_mem (List.mem_of_find?_eq_some htype)
  have hlength := (List.subperm_of_subset hvalid.nodup_listed hsub).length_le
  simpa using hlength

/-- Listing comes to an end: no needed input object is left. -/
theorem complete {fuel : Nat} (hvalid : listing.Valid schema Root)
    (hfuel : schema.allTypes.length < fuel + listing.listed.length)
    (h : Listing.complete schema fuel listing = .ok final) :
    final.Valid schema Root ∧ final.pending = [] := by
  induction fuel generalizing listing with
  | zero =>
      have hle := hvalid.length_listed_le
      omega
  | succ fuel ih =>
      unfold Listing.complete at h
      split at h
      · next hpending =>
          obtain rfl := Except.ok.inj h
          exact ⟨hvalid, hpending⟩
      · next hpending =>
          obtain ⟨next, hnext, h⟩ := except_bind_eq_ok.1 h
          have hnodup : listing.pending.Nodup := hvalid.nodup_needed.filter _
          obtain ⟨hvalid', hlisted⟩ := hvalid.addAll hnodup
            (fun name hname => (mem_pending.1 hname).1) (fun name hname => (mem_pending.1 hname).2)
            hnext
          refine ih hvalid' ?_ h
          have hlength := congrArg List.length hlisted
          have hpos := List.length_pos_of_ne_nil hpending
          simp only [List.length_map, List.length_append] at hlength
          omega

/-- When nothing is pending, exactly the used types are needed. -/
theorem mem_types_iff (hvalid : listing.Valid schema Root) (hpending : listing.pending = [])
    {type : NamedType} : type ∈ listing.needed.types ↔ Needs schema Root type := by
  refine ⟨hvalid.needs type, ?_⟩
  rintro ⟨hneeds, hnamed, hused⟩
  -- by induction on how the name came to be used; an input object on the way is listed by now
  generalize hname : type.name = name at hused hnamed
  induction hused generalizing type with
  | root hroot =>
      subst hname
      exact hvalid.roots type hneeds hnamed hroot
  | @inputField around definitions definition _ hfields hmem ih =>
      have hobject : NamedType.inputObject around ∈ listing.needed.types :=
        ih rfl rfl (Schema.namedType_of_inputFields? hfields)
      have hlisted : around ∈ listing.listed.map InputObject.name :=
        Listing.mem_listed hpending (NeededTypes.mem_types_inputObject.1 hobject)
      obtain ⟨object, hmember, rfl⟩ := List.mem_map.1 hlisted
      obtain ⟨declaration, htype, definitions', hbody, -, -, -, hmade⟩ :=
        inputObject_eq_ok.1 (hvalid.made object hmember)
      obtain rfl : definitions' = definitions := by
        simpa [Schema.inputFields?, Schema.body?, htype, hbody] using hfields
      obtain ⟨field, hfield, hfieldMade⟩ :=
        exists_of_forall₂_of_mem (inputFields_eq_ok.1 hmade).flip hmem
      have hleaf : type = field.type.leaf := by
        have hresolved := Schema.namedType_of_modelType (modelType_of_inputField hfieldMade)
        exact Except.ok.inj (hnamed.symm.trans hresolved)
      subst hleaf
      exact hvalid.fields object hmember field hfield hneeds

end Listing.Valid

/-! ## The listed declarations -/

/-- The declaration declares the enum. -/
def DeclaresEnum (definition : TypeDefinition) (enum : EnumType) : Prop :=
  ∃ values, definition.body = .enum values ∧ enum.name = definition.name ∧
    enum.description = definition.description ∧
    enum.symbols = values.map fun value =>
      ⟨value.name, value.description, deprecationReason? value.directives⟩

/-- The declaration declares the custom scalar. -/
def DeclaresScalar (definition : TypeDefinition) (scalar : CustomScalar) : Prop :=
  definition.body = .scalar ∧ scalar.name = definition.name ∧
    scalar.description = definition.description

/-- The listed items are what the schema's own declarations of used names declare, in the order of
the declarations, each once. -/
structure ListsUsed {α : Type} (schema : Schema) (used : Name → Prop)
    (Declares : TypeDefinition → α → Prop) (name : α → Name) (listed : List α) : Prop where
  mem_iff : ∀ item, item ∈ listed ↔
    ∃ definition ∈ schema.types, used definition.name ∧ Declares definition item
  ordered : (listed.map name).Sublist (schema.types.map TypeDefinition.name)
  nodup : (listed.map name).Nodup

/-- Going through the declarations of the schema keeps their order. -/
theorem listsUsed_filterMap {α : Type} {used : Name → Prop} {Declares : TypeDefinition → α → Prop}
    {name : α → Name} {read : TypeDefinition → Option α} (hnames : schema.NamesOnce)
    (hread : ∀ definition ∈ schema.types, ∀ item,
      read definition = some item ↔ used definition.name ∧ Declares definition item)
    (hname : ∀ definition item, Declares definition item → name item = definition.name) :
    ListsUsed schema used Declares name (schema.types.filterMap read) := by
  have hordered : ∀ definitions ⊆ schema.types,
      ((definitions.filterMap read).map name).Sublist (definitions.map TypeDefinition.name) := by
    intro definitions hsub
    induction definitions with
    | nil => exact List.Sublist.refl _
    | cons first rest ih =>
        have hrest := ih fun definition hmem => hsub (List.mem_cons_of_mem _ hmem)
        cases hfirst : read first with
        | none =>
            rw [List.filterMap_cons_none hfirst]
            exact hrest.cons _
        | some item =>
            have hdeclares := ((hread first (hsub List.mem_cons_self) item).1 hfirst).2
            rw [List.filterMap_cons_some hfirst, List.map_cons, List.map_cons,
              hname first item hdeclares]
            exact hrest.cons_cons _
  have hown : (schema.types.map TypeDefinition.name).Nodup := by
    rw [Schema.NamesOnce, Schema.allTypes, List.map_append] at hnames
    exact hnames.of_append_right
  refine ⟨fun item => ?_, hordered _ (List.Subset.refl _),
    hown.sublist (hordered _ (List.Subset.refl _))⟩
  rw [List.mem_filterMap]
  constructor
  · rintro ⟨definition, hmem, hitem⟩
    exact ⟨definition, hmem, (hread definition hmem item).1 hitem⟩
  · rintro ⟨definition, hmem, hitem⟩
    exact ⟨definition, hmem, (hread definition hmem item).2 hitem⟩

section Lists

variable {listing : Listing} {definition : TypeDefinition}

/-- The type of a declaration is needed exactly if its name is used. -/
theorem mem_types_iff_used (hnames : schema.NamesOnce) (hvalid : listing.Valid schema Root)
    (hpending : listing.pending = []) (hmem : definition ∈ schema.types) {type : NamedType}
    (hdeclared : definition.declared? = some type) (hname : type.name = definition.name) :
    type ∈ listing.needed.types ↔ Used schema Root definition.name := by
  rw [hvalid.mem_types_iff hpending]
  obtain ⟨hneeds, hnamed⟩ := (hnames.declared?_eq_some_iff hmem).1 hdeclared
  constructor
  · intro h
    rw [← hname]
    exact h.used
  · intro h
    refine ⟨hneeds, ?_, ?_⟩
    · rw [hname]
      exact hnamed
    · rw [hname]
      exact h

variable (hnames : schema.NamesOnce) (hvalid : listing.Valid schema Root)
  (hpending : listing.pending = []) (hmem : definition ∈ schema.types)
include hnames hvalid hpending hmem

theorem neededEnum?_eq_some_iff (enum : EnumType) :
    neededEnum? listing.needed definition = some enum ↔
      Used schema Root definition.name ∧ DeclaresEnum definition enum := by
  obtain ⟨name, description, directives, body⟩ := definition
  cases body with
  | enum values =>
      have hused := mem_types_iff_used hnames hvalid hpending hmem rfl rfl
      rw [NeededTypes.mem_types_enum] at hused
      obtain ⟨own, ownDescription, symbols⟩ := enum
      simp only [neededEnum?, hused, DeclaresEnum, Option.ite_none_right_eq_some]
      simp [eq_comm]
  | _ => simp [neededEnum?, DeclaresEnum]

theorem neededScalar?_eq_some_iff (scalar : CustomScalar) :
    neededScalar? listing.needed definition = some scalar ↔
      Used schema Root definition.name ∧ DeclaresScalar definition scalar := by
  obtain ⟨name, description, directives, body⟩ := definition
  cases body with
  | scalar =>
      have hused := mem_types_iff_used hnames hvalid hpending hmem rfl rfl
      rw [NeededTypes.mem_types_customScalar] at hused
      obtain ⟨own, ownDescription⟩ := scalar
      simp only [neededScalar?, hused, DeclaresScalar, Option.ite_none_right_eq_some]
      simp [eq_comm]
  | _ => simp [neededScalar?, DeclaresScalar]

theorem listedObject?_eq_some_iff (object : InputObject) :
    listedObject? listing definition = some object ↔
      Used schema Root definition.name ∧ DeclaresInputObject schema definition object := by
  have htype := hnames.type?_eq_some hmem
  -- all listed input objects of one name are the same
  have hmade : ∀ other ∈ listing.listed, other.name = definition.name →
      DeclaresInputObject schema definition other := by
    intro other hother hname
    have hobject := hvalid.made other hother
    rw [hname] at hobject
    obtain ⟨found, hfound, hdeclares⟩ := inputObject_eq_ok.1 hobject
    rw [htype] at hfound
    rw [Option.some.inj hfound]
    exact hdeclares
  cases hbody : definition.body with
  | inputObject definitions =>
      have hdeclared : definition.declared? = some (.inputObject definition.name) := by
        rw [TypeDefinition.declared?, hbody]
      have hused := mem_types_iff_used hnames hvalid hpending hmem hdeclared rfl
      rw [NeededTypes.mem_types_inputObject] at hused
      simp only [listedObject?, hbody]
      constructor
      · intro h
        have hlisted := List.mem_of_find?_eq_some h
        have hname : object.name = definition.name := by simpa using List.find?_some h
        refine ⟨hused.1 ?_, hmade object hlisted hname⟩
        rw [← hname]
        exact hvalid.listed object hlisted
      · rintro ⟨huse, hdeclares⟩
        obtain ⟨other, hother, hname⟩ :=
          List.mem_map.1 (Listing.mem_listed hpending (hused.2 huse))
        cases hfind : listing.listed.find? (·.name = definition.name) with
        | none => simpa [hname] using List.find?_eq_none.1 hfind other hother
        | some found =>
            have hsame : found.name = definition.name := by simpa using List.find?_some hfind
            have hfound := hvalid.made found (List.mem_of_find?_eq_some hfind)
            rw [hsame, inputObject_eq_ok.2 ⟨definition, htype, hdeclares⟩] at hfound
            rw [Except.ok.inj hfound]
  | _ => simp [listedObject?, hbody, DeclaresInputObject]

end Lists

/-- **The listed declarations are the used ones.**  Let the declarations of the schema have
different names.  The names to start from are those of the marked types and of the declarations
that the configuration asks for. -/
theorem listsUsed_of_ofMarks {config : Config} {marks : List NamedType}
    {declarations : Declarations} (hnames : schema.NamesOnce)
    (hroots : ∀ type : NamedType, type.needsDeclaration = true →
      (type ∈ marks ∨
          (∃ definition ∈ schema.types, config.alwaysGenerates definition.name = true ∧
            definition.declared? = some type) ↔
        schema.namedType type.name = .ok type ∧ Root type.name))
    (h : ofMarks schema config marks = .ok declarations) :
    ListsUsed schema (Used schema Root) (DeclaresInputObject schema) InputObject.name
        declarations.inputObjects ∧
      ListsUsed schema (Used schema Root) DeclaresEnum EnumType.name declarations.enums ∧
      ListsUsed schema (Used schema Root) DeclaresScalar CustomScalar.name
        declarations.customScalars := by
  obtain ⟨listing, hlisting, h⟩ := except_bind_eq_ok.1 h
  obtain rfl := Except.ok.inj h
  have hstart : ∀ type : NamedType,
      type ∈ (schema.types.foldl (NeededTypes.addConfigured config)
        (NeededTypes.empty.addAll marks)).types ↔
      type.needsDeclaration = true ∧ schema.namedType type.name = .ok type ∧ Root type.name := by
    intro type
    rw [NeededTypes.mem_types_foldl_addConfigured, NeededTypes.mem_types_addAll]
    constructor
    · rintro ((hempty | ⟨hmark, hneeds⟩) | ⟨definition, hmem, hconfig, hdeclared⟩)
      · exact absurd hempty List.not_mem_nil
      · exact ⟨hneeds, (hroots _ hneeds).1 (.inl hmark)⟩
      · have hneeds := TypeDefinition.needsDeclaration_of_declared? hdeclared
        exact ⟨hneeds, (hroots _ hneeds).1 (.inr ⟨definition, hmem, hconfig, hdeclared⟩)⟩
    · rintro ⟨hneeds, hroot⟩
      rcases (hroots type hneeds).2 hroot with hmark | hconfigured
      · exact .inl (.inr ⟨hmark, hneeds⟩)
      · exact .inr hconfigured
  have hvalid := Listing.Valid.of_roots hstart (NeededTypes.nodup_inputObjects_foldl_addConfigured
    (NeededTypes.nodup_inputObjects_addAll List.nodup_nil marks) schema.types)
  obtain ⟨hfinal, hpending⟩ := hvalid.complete (by simp) hlisting
  refine ⟨listsUsed_filterMap hnames ?_ ?_, listsUsed_filterMap hnames ?_ ?_,
    listsUsed_filterMap hnames ?_ ?_⟩
  · exact fun definition hmem => listedObject?_eq_some_iff hnames hfinal hpending hmem
  · exact fun definition item hdeclares => hdeclares.choose_spec.2.1
  · exact fun definition hmem => neededEnum?_eq_some_iff hnames hfinal hpending hmem
  · exact fun definition item hdeclares => hdeclares.choose_spec.2.1
  · exact fun definition hmem => neededScalar?_eq_some_iff hnames hfinal hpending hmem
  · exact fun definition item hdeclares => hdeclares.2.1

end Declarations

end ResponseModel
