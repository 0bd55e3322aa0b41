import ResponseModel.Pattern.Standard
import ResponseModel.Proofs.Listing
import ResponseModel.Proofs.Models

/-!
# Used declarations

The declarations that come with a model are those of the types that it uses (`Model.Uses`): the
types of its variables, fields and arguments, those that the configuration asks for, and the types
of the fields of used input objects in turn.  Every type in a model is resolved against the schema
(`Linked.typed_of_build`), so a used name stands for one type, and the listing of declarations finds
exactly these: `listsUsed_declarations`.
-/

namespace ResponseModel

/-! ## Types in a tree -/

namespace Field

theorem mem_typesOfShapes {shapes : List Shape} {type : ModelType} :
    type ∈ typesOfShapes shapes ↔ ∃ shape ∈ shapes, ∃ field ∈ shape.fields, type ∈ field.types := by
  induction shapes with
  | nil => simp [typesOfShapes]
  | cons shape rest ih =>
      have hshape : typesOfShape shape = shape.fields.flatMap types := by
        rw [← typesOfFields_eq]
        cases shape
        rfl
      rw [typesOfShapes, List.mem_append, ih, hshape, List.mem_flatMap]
      simp only [List.mem_cons, exists_eq_or_imp]

theorem mem_types {field : Field} {type : ModelType} : type ∈ field.types ↔
    type = field.type ∨ (∃ argument ∈ field.arguments, type = argument.type) ∨
      type ∈ typesOfShapes field.shapes := by
  have htypes : field.types =
      field.type :: field.arguments.map Argument.type ++ typesOfShapes field.shapes := by
    cases field
    rfl
  simp only [htypes, List.cons_append, List.mem_cons, List.mem_append, List.mem_map,
    eq_comm (a := type)]

theorem mem_allShapes_iff {top : Field} {shape : Shape} : shape ∈ top.allShapes ↔
    shape ∈ top.shapes ∨ ∃ around ∈ top.shapes, ∃ sub ∈ around.fields, shape ∈ sub.allShapes := by
  simp only [allShapes, List.mem_flatMap]
  constructor
  · rintro ⟨field, hfield, hshape⟩
    rcases mem_all_iff.1 hfield with rfl | ⟨around, haround, sub, hsub, hfield⟩
    · exact .inl hshape
    · exact .inr ⟨around, haround, sub, hsub, field, hfield, hshape⟩
  · rintro (hshape | ⟨around, haround, sub, hsub, field, hfield, hshape⟩)
    · exact ⟨top, top.self_mem_all, hshape⟩
    · exact ⟨field, mem_all_iff.2 (.inr ⟨around, haround, sub, hsub, hfield⟩), hshape⟩

/-- The types below the top of a tree are those of the fields of its shapes and of their
arguments. -/
theorem mem_typesOfShapes_iff {top : Field} {type : ModelType} :
    type ∈ typesOfShapes top.shapes ↔ ∃ shape ∈ top.allShapes, ∃ field ∈ shape.fields,
      type = field.type ∨ ∃ argument ∈ field.arguments, type = argument.type := by
  induction top using Field.induction with
  | h top ih =>
      rw [mem_typesOfShapes]
      constructor
      · rintro ⟨shape, hshape, field, hfield, htype⟩
        rcases mem_types.1 htype with htype | htype | htype
        · exact ⟨shape, mem_allShapes_iff.2 (.inl hshape), field, hfield, .inl htype⟩
        · exact ⟨shape, mem_allShapes_iff.2 (.inl hshape), field, hfield, .inr htype⟩
        · obtain ⟨inner, hinner, found⟩ := (ih shape hshape field hfield).1 htype
          exact ⟨inner, mem_allShapes_iff.2 (.inr ⟨shape, hshape, field, hfield, hinner⟩), found⟩
      · rintro ⟨shape, hshape, field, hfield, htype⟩
        rcases mem_allShapes_iff.1 hshape with hshape | ⟨around, haround, sub, hsub, hshape⟩
        · refine ⟨shape, hshape, field, hfield, mem_types.2 ?_⟩
          exact htype.imp id .inl
        · refine ⟨around, haround, sub, hsub, mem_types.2 (.inr (.inr ?_))⟩
          exact (ih around haround sub hsub).2 ⟨shape, hshape, field, hfield, htype⟩

end Field

/-! ## Resolved types -/

/-- The type is what the schema makes of some written type. -/
def Schema.Resolves (schema : Schema) (type : ModelType) : Prop :=
  ∃ written, schema.modelType written = .ok type

theorem Schema.Resolves.namedType {schema : Schema} {type : ModelType} (h : schema.Resolves type) :
    schema.namedType type.leafName = .ok type.leaf := by
  obtain ⟨written, hwritten⟩ := h
  rw [leafName_of_modelType hwritten]
  exact namedType_of_modelType hwritten

theorem Builder.resolves_of_argument {builder : Builder} {field : Name}
    {definition : FieldDefinition} {written : Name × Literal} {argument : Argument}
    (h : (builder.argument field definition written).result = .ok argument) :
    builder.schema.Resolves argument.type := by
  obtain ⟨name, literal⟩ := written
  rw [Builder.argument] at h
  split at h
  · cases h
  · next input _ =>
      obtain ⟨defaultValue, -, h⟩ := Traced.result_bind_eq_ok.1 h
      obtain ⟨value, -, h⟩ := Traced.result_bind_eq_ok.1 h
      obtain ⟨type, htype, h⟩ := Traced.result_bind_eq_ok.1 h
      obtain rfl := Except.ok.inj h
      exact ⟨input.type, Traced.result_mapType.1 htype⟩

/-- The types of the fields below the top of a tree and of their arguments are resolved. -/
theorem Builder.DataFieldFrom.resolves {builder : Builder} {type : Name}
    {selections : List Resolved} {root : Path} {data : Field}
    (h : builder.DataFieldFrom type selections root data) {shape : Shape}
    (hshape : shape ∈ data.allShapes) {field : Field} (hfield : field ∈ shape.fields) :
    builder.schema.Resolves field.type ∧
      ∀ argument ∈ field.arguments, builder.schema.Resolves argument.type := by
  obtain ⟨request, earlier, collected, entry, -, -, -, hfrom⟩ :=
    h.fills.exists_fieldFrom (Q := fun _ => True) trivial
      (fun _ _ _ _ _ _ _ _ _ _ _ _ _ => trivial) hshape hfield
  refine ⟨⟨_, hfrom.type⟩, fun argument hargument => ?_⟩
  obtain ⟨written, -, hwritten⟩ := exists_of_forall₂_of_mem hfrom.arguments hargument
  exact resolves_of_argument hwritten

namespace Linked

variable {schema : Schema}

theorem resolves_of_declaredVariable {definition : VariableDefinition} {var : Variable}
    (h : (declaredVariable schema definition).result = .ok var) : schema.Resolves var.type := by
  obtain ⟨defaultValue, -, h⟩ := Traced.result_bind_eq_ok.1 h
  obtain ⟨type, htype, h⟩ := Traced.result_bind_eq_ok.1 h
  obtain rfl := Except.ok.inj h
  exact ⟨definition.type, Traced.result_mapType.1 htype⟩

theorem resolves_of_inferredVariable {entry : Name × TypeRef} {var : Variable}
    (h : (inferredVariable schema entry).result = .ok var) : schema.Resolves var.type := by
  obtain ⟨type, htype, h⟩ := Traced.result_bind_eq_ok.1 h
  obtain rfl := Except.ok.inj h
  exact ⟨entry.2, Traced.result_mapType.1 htype⟩

end Linked

/-! ## Mentioned and used types -/

/-- The name of the type of a variable, of a field that is not the top of a tree, or of an argument
of the model, or of a declaration that the configuration asks for. -/
inductive Model.Mentions (model : Model) (schema : Schema) (config : Config) : Name → Prop
  | operationVariable {operation : OperationModel} {var : Variable} :
      operation ∈ model.operations → var ∈ operation.vars →
      Mentions model schema config var.type.leafName
  | fragmentVariable {fragment : FragmentModel} {var : Variable} :
      fragment ∈ model.fragments → var ∈ fragment.vars →
      Mentions model schema config var.type.leafName
  | field {data field : Field} {shape : Shape} :
      data ∈ model.dataFields → shape ∈ data.allShapes → field ∈ shape.fields →
      Mentions model schema config field.type.leafName
  | argument {data field : Field} {shape : Shape} {argument : Argument} :
      data ∈ model.dataFields → shape ∈ data.allShapes → field ∈ shape.fields →
      argument ∈ field.arguments → Mentions model schema config argument.type.leafName
  | configured {definition : TypeDefinition} :
      definition ∈ schema.types → config.alwaysGenerates definition.name = true →
      Mentions model schema config definition.name

/-- The least set of names that contains the mentioned ones and, with an input object, the names of
the types of its fields. -/
def Model.Uses (model : Model) (schema : Schema) (config : Config) : Name → Prop :=
  Declarations.Used schema (model.Mentions schema config)

namespace Linked

variable {options : Options} {schema : Schema} {documents accompanying : List Document}
  {linked : Linked} {config : Config} {model : Model}

/-- All types in a model are resolved, except for those at the tops of its trees. -/
structure Typed (schema : Schema) (model : Model) : Prop where
  operationVars : ∀ operation ∈ model.operations, ∀ var ∈ operation.vars, schema.Resolves var.type
  fragmentVars : ∀ fragment ∈ model.fragments, ∀ var ∈ fragment.vars, schema.Resolves var.type
  fields : ∀ data ∈ model.dataFields, ∀ shape ∈ data.allShapes, ∀ field ∈ shape.fields,
    schema.Resolves field.type ∧ ∀ argument ∈ field.arguments, schema.Resolves argument.type

theorem typed_of_build (hlink : ofDocuments options schema documents accompanying = .ok linked)
    (hbuild : (linked.build config).result = .ok model) : Typed schema model := by
  have hschema := (linkedFrom hlink).schema_eq
  obtain ⟨order, built, hparts⟩ := buildFrom_of_result hbuild
  refine ⟨?_, ?_, ?_⟩
  · intro operation hoperation var hvar
    obtain ⟨written, -, hresult⟩ := exists_of_forall₂_of_mem hparts.operations hoperation
    obtain ⟨definition, -, hdefinition⟩ :=
      exists_of_forall₂_of_mem (vars_of_operationModel hresult) hvar
    rw [← hschema]
    exact resolves_of_declaredVariable hdefinition
  · intro fragment hfragment var hvar
    obtain ⟨name, before, after, hsplit⟩ := hparts.exists_built hfragment
    obtain ⟨linkedFragment, -, hresult⟩ := hparts.fragmentModel_split hsplit
    obtain ⟨inferred, -, hvars⟩ := vars_of_fragmentModel hresult
    obtain ⟨entry, -, hentry⟩ := exists_of_forall₂_of_mem hvars hvar
    rw [← hschema]
    exact resolves_of_inferredVariable hentry
  · intro data hdata shape hshape field hfield
    obtain ⟨selections, htop⟩ := exists_isTop hlink hbuild hdata
    obtain ⟨builder, rfl, type, root, hfrom⟩ := htop.dataFieldFrom hlink hbuild
    exact hfrom.resolves hshape hfield

/-- A type below the top of a tree of the model is mentioned and resolved. -/
theorem Typed.mentions_of_mem_typesOfShapes (h : Typed schema model) {data : Field}
    (hdata : data ∈ model.dataFields) {type : ModelType}
    (htype : type ∈ typesOfShapes data.shapes) :
    schema.Resolves type ∧ model.Mentions schema config type.leafName := by
  obtain ⟨shape, hshape, field, hfield, hsource⟩ := Field.mem_typesOfShapes_iff.1 htype
  obtain ⟨hresolves, hresolvesArguments⟩ := h.fields data hdata shape hshape field hfield
  rcases hsource with rfl | ⟨argument, hargument, rfl⟩
  · exact ⟨hresolves, .field hdata hshape hfield⟩
  · exact ⟨hresolvesArguments argument hargument, .argument hdata hshape hfield hargument⟩

theorem BuildFrom.mem_typesOf {order : List Name} {built : List (Name × FragmentModel)}
    (h : linked.BuildFrom order built model) {type : ModelType} :
    type ∈ typesOf built model.operations ↔
      (∃ fragment ∈ model.fragments, type ∈ fragment.types) ∨
        ∃ operation ∈ model.operations, type ∈ operation.types := by
  rw [typesOf, List.mem_append, List.mem_flatMap, List.mem_flatMap]
  constructor
  · rintro (⟨entry, hentry, htype⟩ | hoperation)
    · exact .inl ⟨entry.2, h.mem_fragments hentry, htype⟩
    · exact .inr hoperation
  · rintro (⟨fragment, hfragment, htype⟩ | hoperation)
    · obtain ⟨name, before, after, hsplit⟩ := h.exists_built hfragment
      refine .inl ⟨(name, fragment), ?_, htype⟩
      rw [hsplit]
      exact List.mem_append_right _ List.mem_cons_self
    · exact .inr hoperation

theorem BuildFrom.mem_typesOf_of_mem_typesOfShapes {order : List Name}
    {built : List (Name × FragmentModel)} (h : linked.BuildFrom order built model) {data : Field}
    (hdata : data ∈ model.dataFields) {type : ModelType}
    (htype : type ∈ typesOfShapes data.shapes) : type ∈ typesOf built model.operations := by
  rw [h.mem_typesOf]
  rcases List.mem_append.1 hdata with hdata | hdata
  · obtain ⟨operation, hoperation, rfl⟩ := List.mem_map.1 hdata
    exact .inr ⟨operation, hoperation, List.mem_append_right _ htype⟩
  · obtain ⟨fragment, hfragment, rfl⟩ := List.mem_map.1 hdata
    exact .inl ⟨fragment, hfragment, List.mem_append_right _ htype⟩

/-- A type that is used in the model is mentioned and resolved. -/
theorem Typed.mentions_of_mem_typesOf {order : List Name} {built : List (Name × FragmentModel)}
    (htyped : Typed schema model) (hparts : linked.BuildFrom order built model) {type : ModelType}
    (htype : type ∈ typesOf built model.operations) :
    schema.Resolves type ∧ model.Mentions schema config type.leafName := by
  rcases hparts.mem_typesOf.1 htype with ⟨fragment, hfragment, htype⟩ |
    ⟨operation, hoperation, htype⟩
  · rcases List.mem_append.1 htype with hvar | hdata
    · obtain ⟨var, hmember, rfl⟩ := List.mem_map.1 hvar
      exact ⟨htyped.fragmentVars fragment hfragment var hmember,
        .fragmentVariable hfragment hmember⟩
    · exact htyped.mentions_of_mem_typesOfShapes
        (List.mem_append_right _ (List.mem_map_of_mem hfragment)) hdata
  · rcases List.mem_append.1 htype with hvar | hdata
    · obtain ⟨var, hmember, rfl⟩ := List.mem_map.1 hvar
      exact ⟨htyped.operationVars operation hoperation var hmember,
        .operationVariable hoperation hmember⟩
    · exact htyped.mentions_of_mem_typesOfShapes
        (List.mem_append_left _ (List.mem_map_of_mem hoperation)) hdata

/-- What is mentioned is the name of a resolved type that is used in the model, or of a declaration
that the configuration asks for. -/
theorem Typed.exists_of_mentions {order : List Name} {built : List (Name × FragmentModel)}
    (htyped : Typed schema model) (hparts : linked.BuildFrom order built model) {name : Name}
    (h : model.Mentions schema config name) :
    (∃ type ∈ typesOf built model.operations, schema.Resolves type ∧ type.leafName = name) ∨
      ∃ definition ∈ schema.types, config.alwaysGenerates definition.name = true ∧
        definition.name = name := by
  cases h with
  | operationVariable hoperation hvar =>
      refine .inl ⟨_, ?_, htyped.operationVars _ hoperation _ hvar, rfl⟩
      exact hparts.mem_typesOf.2
        (.inr ⟨_, hoperation, List.mem_append_left _ (List.mem_map_of_mem hvar)⟩)
  | fragmentVariable hfragment hvar =>
      refine .inl ⟨_, ?_, htyped.fragmentVars _ hfragment _ hvar, rfl⟩
      exact hparts.mem_typesOf.2
        (.inl ⟨_, hfragment, List.mem_append_left _ (List.mem_map_of_mem hvar)⟩)
  | field hdata hshape hfield =>
      refine .inl ⟨_, ?_, (htyped.fields _ hdata _ hshape _ hfield).1, rfl⟩
      exact hparts.mem_typesOf_of_mem_typesOfShapes hdata
        (Field.mem_typesOfShapes_iff.2 ⟨_, hshape, _, hfield, .inl rfl⟩)
  | argument hdata hshape hfield hargument =>
      refine .inl ⟨_, ?_, (htyped.fields _ hdata _ hshape _ hfield).2 _ hargument, rfl⟩
      exact hparts.mem_typesOf_of_mem_typesOfShapes hdata
        (Field.mem_typesOfShapes_iff.2 ⟨_, hshape, _, hfield, .inr ⟨_, hargument, rfl⟩⟩)
  | configured hmem hconfig => exact .inr ⟨_, hmem, hconfig, rfl⟩

/-- The types that the listing starts from, which are marked or asked for, are those that are
mentioned. -/
theorem mem_marks_iff_mentions {order : List Name} {built : List (Name × FragmentModel)}
    (hnames : schema.NamesOnce) (hparts : linked.BuildFrom order built model)
    (htyped : Typed schema model) {type : NamedType} (hneeds : type.needsDeclaration = true) :
    type ∈ (typesOf built model.operations).map ModelType.leaf ∨
        (∃ definition ∈ schema.types, config.alwaysGenerates definition.name = true ∧
          definition.declared? = some type) ↔
      schema.namedType type.name = .ok type ∧ model.Mentions schema config type.name := by
  rw [List.mem_map]
  constructor
  · rintro (⟨item, hitem, rfl⟩ | ⟨definition, hmem, hconfig, hdeclared⟩)
    · obtain ⟨hresolves, hmentions⟩ := htyped.mentions_of_mem_typesOf hparts hitem
      exact ⟨hresolves.namedType, hmentions⟩
    · obtain ⟨-, hnamed⟩ := (hnames.declared?_eq_some_iff hmem).1 hdeclared
      rw [Schema.name_of_namedType hnamed]
      exact ⟨hnamed, .configured hmem hconfig⟩
  · rintro ⟨hnamed, hmentions⟩
    rcases htyped.exists_of_mentions hparts hmentions with ⟨item, hitem, hresolves, hname⟩ |
      ⟨definition, hmem, hconfig, hname⟩
    · -- a name stands for one type
      have hitemNamed := hresolves.namedType
      rw [hname, hnamed] at hitemNamed
      exact .inl ⟨item, hitem, (Except.ok.inj hitemNamed).symm⟩
    · rw [← hname] at hnamed
      exact .inr ⟨definition, hmem, hconfig,
        (hnames.declared?_eq_some_iff hmem).2 ⟨hneeds, hnamed⟩⟩

end Linked

/-- **The declarations of a model are the used ones.**  Let the declarations of the schema have
different names, and build a model of any documents.  The input objects, enums and custom scalars
that come with it are those that the schema's own declarations of used names declare, each once and
in the order of the schema; input objects may refer to each other in any way.  None of the custom
scalars has the name of a built-in scalar. -/
theorem listsUsed_declarations {options : Options} {schema : Schema}
    {documents accompanying : List Document} {linked : Linked} {config : Config} {model : Model}
    (hnames : schema.NamesOnce)
    (hlink : Linked.ofDocuments options schema documents accompanying = .ok linked)
    (hbuild : (linked.build config).result = .ok model) :
    Declarations.ListsUsed schema (model.Uses schema config)
        (Declarations.DeclaresInputObject schema) InputObject.name
        model.declarations.inputObjects ∧
      Declarations.ListsUsed schema (model.Uses schema config) Declarations.DeclaresEnum
        EnumType.name model.declarations.enums ∧
      Declarations.ListsUsed schema (model.Uses schema config) Declarations.DeclaresScalar
        CustomScalar.name model.declarations.customScalars ∧
      ∀ scalar ∈ model.declarations.customScalars, NamedType.builtIn? scalar.name = none := by
  obtain ⟨order, built, hparts, hdeclarations⟩ := Linked.buildFrom_and_ofMarks hbuild
  rw [(Linked.linkedFrom hlink).schema_eq] at hdeclarations
  have htyped := Linked.typed_of_build hlink hbuild
  obtain ⟨hinputs, henums, hscalars⟩ := Declarations.listsUsed_of_ofMarks hnames
    (fun type hneeds => Linked.mem_marks_iff_mentions hnames hparts htyped hneeds) hdeclarations
  refine ⟨hinputs, henums, hscalars, fun scalar hscalar => ?_⟩
  obtain ⟨definition, hmem, -, -, hname, -⟩ := (hscalars.mem_iff scalar).1 hscalar
  rw [hname]
  exact hnames.builtIn?_eq_none hmem

/-! ## A search

Filters and ranges refer to each other.  Nothing refers to options and drafts, and the configuration
asks for options.  The fragment of the search spreads itself below a field to which it does not
apply, so one round more has to be resolved. -/

namespace Search

open Sample (definition declaration select)

/-- An argument or an input field without a default. -/
def input (name type : Name) : InputDefinition := ⟨name, .named type false, none, none, []⟩

/-- An enum with one symbol. -/
def enum (name symbol : Name) : TypeDefinition := declaration name (.enum [⟨symbol, none, []⟩])

def schema : Schema where
  queryRoot := some "Query"
  mutationRoot := none
  subscriptionRoot := none
  types :=
    [declaration "Query" (.object []
        [{ definition "search" "Hit" with arguments := [input "filter" "Filter"] }]),
      declaration "Hit" (.object [] [definition "rank" "Rank", definition "folder" "Folder"]),
      declaration "Folder" (.object [] [definition "title" "String"]),
      enum "Level" "LOW",
      declaration "Options" (.inputObject [input "level" "Level"]),
      declaration "Draft" (.inputObject [input "stamp" "Stamp"]),
      declaration "Range" (.inputObject [input "within" "Filter", input "since" "Date"]),
      declaration "Filter" (.inputObject [input "other" "Filter", input "range" "Range"]),
      enum "Rank" "FIRST",
      declaration "Date" .scalar,
      declaration "Stamp" .scalar]
  directives := []

def document : Document where
  path := none
  operations :=
    [{ kind := .query
       name := some "Find"
       vars := [⟨"filter", .named "Filter" false, none, []⟩]
       directives := []
       selections :=
         [.field ⟨none, "search", [("filter", .var "filter")], []⟩ [.spread "Ranked" []]] }]
  fragments :=
    [⟨"Ranked", "Hit", [],
      [select "rank" [] [], select "folder" [] [select "title" [] [], .spread "Ranked" []]]⟩]

theorem config_reads : (Config.ofPatterns .standard ["Options"]).toOption.isSome = true := by
  decide +kernel

/-- The configuration that asks for options. -/
def config : Config := (Config.ofPatterns .standard ["Options"]).toOption.get config_reads

def options : Options := Options.standard.further

theorem links : (Linked.ofDocuments options schema [document] []).toOption.isSome = true := by
  decide +kernel

/-- The documents of the search, linked. -/
def linked : Linked := (Linked.ofDocuments options schema [document] []).toOption.get links

theorem builds : (linked.build config).result.toOption.isSome = true := by decide +kernel

/-- The model of the search. -/
def model : Model := (linked.build config).result.toOption.get builds

end Search

theorem listsUsed_declarations_search :
    Search.schema.NamesOnce ∧
    Linked.ofDocuments Search.options Search.schema [Search.document] [] = .ok Search.linked ∧
    (Search.linked.build Search.config).result = .ok Search.model ∧
    Search.model.declarations.inputObjects.map InputObject.name = ["Options", "Range", "Filter"] ∧
    Search.model.declarations.enums.map EnumType.name = ["Level", "Rank"] ∧
    Search.model.declarations.customScalars.map CustomScalar.name = ["Date"] ∧
    Declarations.ListsUsed Search.schema (Search.model.Uses Search.schema Search.config)
      (Declarations.DeclaresInputObject Search.schema) InputObject.name
      Search.model.declarations.inputObjects ∧
    Declarations.ListsUsed Search.schema (Search.model.Uses Search.schema Search.config)
      Declarations.DeclaresEnum EnumType.name Search.model.declarations.enums ∧
    Declarations.ListsUsed Search.schema (Search.model.Uses Search.schema Search.config)
      Declarations.DeclaresScalar CustomScalar.name Search.model.declarations.customScalars ∧
    ∀ scalar ∈ Search.model.declarations.customScalars,
      NamedType.builtIn? scalar.name = none := by
  have hnames : Search.schema.NamesOnce := by
    unfold Schema.NamesOnce
    decide +kernel
  have hlink := except_eq_ok_get Search.links
  have hbuild := except_eq_ok_get Search.builds
  exact ⟨hnames, hlink, hbuild, by decide +kernel, by decide +kernel, by decide +kernel,
    listsUsed_declarations hnames hlink hbuild⟩

end ResponseModel
