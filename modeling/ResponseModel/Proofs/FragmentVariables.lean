import ResponseModel.Proofs.Uses

/-!
# The variables of a fragment

The variables of a fragment are inferred from its selections, while its tree is built from merged
fields, coerced values and combined conditions.  Both agree: whatever variable a field of the tree
refers to is one of the inferred variables (`mem_vars_of_mem_field_vars`).

The argument follows a variable of the tree back to a use in the selections.  A field in the tree
comes from occurrences that flattening found, below and under conditions that come from the
selections as well (`Within`); `Uses` says where a variable in a value or a condition is used, and
that the search finds the use.
-/

namespace ResponseModel

/-! ## Directives -/

namespace Selection

mutual

/-- The directives in a selection, at any depth. -/
def directives : Selection → List Directive
  | .field node selections => node.directives ++ directivesAll selections
  | .spread _ directives => directives
  | .inline _ directives selections => directives ++ directivesAll selections

/-- The directives in a selection set, at any depth. -/
def directivesAll : List Selection → List Directive
  | [] => []
  | selection :: rest => directives selection ++ directivesAll rest

end

end Selection

/-- The directives of resolved selections are those that are written in them and in fragments. -/
theorem Library.Resolution.forall_directives {library : Library} {schema : Schema} {parent : Name}
    {written : List Selection} {resolved : List Resolved}
    (h : library.Resolution schema parent written resolved) {P : Directive → Prop}
    (hlibrary : ∀ entry ∈ library.entries,
      ∀ directive ∈ Selection.directivesAll entry.2.fragment.selections, P directive)
    (hwritten : ∀ directive ∈ Selection.directivesAll written, P directive) :
    ∀ node ∈ Resolved.nodesAll resolved, ∀ directive ∈ node.directives, P directive := by
  induction h with
  | nil => exact fun node hnode => absurd hnode List.not_mem_nil
  | field _ _ _ ihbelow ihrest =>
      simp only [Selection.directivesAll, Selection.directives, List.forall_mem_append] at hwritten
      intro node hnode
      rcases Resolved.mem_nodesAll_field.1 hnode with rfl | hnode | hnode
      · exact hwritten.1.1
      · exact ihbelow hwritten.1.2 node hnode
      · exact ihrest hwritten.2 node hnode
  | inline _ _ ihbelow ihrest =>
      simp only [Selection.directivesAll, Selection.directives, List.forall_mem_append] at hwritten
      intro node hnode
      rcases Resolved.mem_nodesAll_inline.1 hnode with rfl | hnode | hnode
      · exact hwritten.1.1
      · exact ihbelow hwritten.1.2 node hnode
      · exact ihrest hwritten.2 node hnode
  | spread hentry _ _ ihbelow ihrest =>
      simp only [Selection.directivesAll, Selection.directives, List.forall_mem_append] at hwritten
      intro node hnode
      rcases Resolved.mem_nodesAll_spread.1 hnode with rfl | hnode | hnode
      · exact hwritten.1
      · exact ihbelow (hlibrary _ (mem_of_lookup_eq_some hentry)) node hnode
      · exact ihrest hwritten.2 node hnode
  | undefined _ _ ihrest =>
      simp only [Selection.directivesAll, Selection.directives, List.forall_mem_append] at hwritten
      intro node hnode
      rcases Resolved.mem_nodesAll_dangling.1 hnode with rfl | hnode
      · exact hwritten.1
      · exact ihrest hwritten.2 node hnode

/-! ## Conditions of occurrences -/

namespace Resolved

/-- A variable in the condition of an occurrence is one of the condition that the selections are
under, or comes from the directives of a selection on the way. -/
theorem exists_of_mem_condition_names {applies : Name → Bool} {condition : Condition}
    {selections : List Resolved} {pieces : List Flat}
    (h : flattenAll applies condition selections = .ok pieces) :
    ∀ o ∈ Flat.occurrences pieces, ∀ name ∈ o.condition.names, name ∈ condition.names ∨
      ∃ node ∈ nodesAll selections, ∃ label own,
        Condition.ofDirectives node.directives label = .ok own ∧ name ∈ own.names := by
  refine forall_mem_flattenAll_under (P := fun condition selections o =>
    ∀ name ∈ o.condition.names, name ∈ condition.names ∨
      ∃ node ∈ nodesAll selections, ∃ label own,
        Condition.ofDirectives node.directives label = .ok own ∧ name ∈ own.names) ?_ ?_ ?_ ?_ h
  · intro condition own parent node definition selections rest hown name hname
    refine (Condition.mem_names_and hname).imp_right fun hname => ?_
    exact ⟨_, mem_nodesAll_field.2 (.inl rfl), node.responseName, own, hown, hname⟩
  · intro condition own written type directives selections rest o hown ih name hname
    rcases ih name hname with hname | ⟨node, hnode, hnames⟩
    · refine (Condition.mem_names_and hname).imp_right fun hname => ?_
      exact ⟨_, mem_nodesAll_inline.2 (.inl rfl), "... on " ++ type, own, hown, hname⟩
    · exact .inr ⟨node, mem_nodesAll_inline.2 (.inr (.inl hnode)), hnames⟩
  · intro condition own spread directives type selections rest o hown ih name hname
    rcases ih name hname with hname | ⟨node, hnode, hnames⟩
    · refine (Condition.mem_names_and hname).imp_right fun hname => ?_
      exact ⟨_, mem_nodesAll_spread.2 (.inl rfl), "..." ++ spread, own, hown, hname⟩
    · exact .inr ⟨node, mem_nodesAll_spread.2 (.inr (.inl hnode)), hnames⟩
  · intro condition selection rest o ih name hname
    refine (ih name hname).imp_right ?_
    rintro ⟨node, hnode, hnames⟩
    exact ⟨node, List.mem_append_right _ hnode, hnames⟩

end Resolved

/-! ## Variables in a tree -/

/-- The variables that a field refers to itself: those of its condition, and those anywhere in the
values of its arguments. -/
def Field.vars (field : Field) : List Name :=
  field.condition.names ++ field.arguments.flatMap fun argument => argument.value.vars

/-- The branch is a part of the selections, under a condition whose variables are used in them. -/
structure Branch.Within (schema : Schema) (whole : List Resolved) (branch : Branch) : Prop where
  nodes : Resolved.nodesAll branch.1 ⊆ Resolved.nodesAll whole
  names : branch.2.names ⊆ Use.names (Resolved.allUses schema whole)

namespace Builder

variable {builder : Builder} {whole : List Resolved} (hschema : builder.schema.DeclaresIf)
  (hif : ∀ node ∈ Resolved.nodesAll whole, ∀ directive ∈ node.directives, directive.NamesIf)
include hschema hif

/-- What is merged from parts of the selections is part of them. -/
theorem within_of_collect {applies : Name → Bool} {branches : List Branch}
    {collected : Collected} (h : collect applies branches = .ok collected)
    (hbranches : ∀ branch ∈ branches, Branch.Within builder.schema whole branch)
    {entry : Name × Merged} (hentry : entry ∈ collected.fields) {o : Occurrence}
    (ho : o ∈ entry.2.occurrences) :
    .field o.parent o.node o.definition o.selections ∈ Resolved.nodesAll whole ∧
      Branch.Within builder.schema whole (o.selections, o.condition) := by
  obtain ⟨branch, hbranch, pieces, hpieces, hmem⟩ := exists_flattenAll_of_collect h hentry ho
  have hwithin := hbranches branch hbranch
  obtain ⟨hnode, hbelow⟩ := Resolved.mem_nodesAll_of_mem_flattenAll hpieces o hmem
  refine ⟨hwithin.nodes hnode, fun node hnode => hwithin.nodes (hbelow hnode), fun name hname => ?_⟩
  rcases Resolved.exists_of_mem_condition_names hpieces o hmem name hname with
    hname | ⟨node, hnode, label, own, hown, hname⟩
  · exact hwithin.names hname
  · have hnode := hwithin.nodes hnode
    have hown := Condition.names_subset_of_ofDirectives hschema (hif node hnode) hown hname
    refine Use.names_subset (Resolved.ownUses_subset_allUses hnode) ?_
    exact Use.names_subset (List.subset_append_left _ _) hown

omit hschema hif in
/-- The variables in the value of an argument are used in the argument. -/
theorem vars_subset_of_argument {definition : FieldDefinition} {node : FieldNode}
    {written : Name × Literal} (hwritten : written ∈ node.arguments) {argument : Argument}
    (h : (builder.argument node.name definition written).result = .ok argument) :
    argument.value.vars ⊆ Use.names (node.uses builder.schema definition) := by
  obtain ⟨name, literal⟩ := written
  rw [Builder.argument] at h
  split at h
  · cases h
  · next input hinput =>
      obtain ⟨defaultValue, -, h⟩ := Traced.result_bind_eq_ok.1 h
      obtain ⟨value, hvalue, h⟩ := Traced.result_bind_eq_ok.1 h
      obtain ⟨type, -, h⟩ := Traced.result_bind_eq_ok.1 h
      obtain rfl := Except.ok.inj h
      have hown : literal.uses builder.schema input.type ⊆ node.uses builder.schema definition := by
        intro use huse
        refine List.mem_flatMap.2 ⟨(name, literal), hwritten, ?_⟩
        simpa only [hinput] using huse
      exact List.Subset.trans
        (Coercion.vars_subset_of_coerce (Traced.result_ofCoercion.1 hvalue)) (Use.names_subset hown)

/-- The variables that a field of a shape refers to are used in the selections that the shape is
built from. -/
theorem FieldFrom.vars_subset {Below : Request → List Shape → Prop} {request : Request}
    {earlier : List Shape} {collected : Collected} {shape : Shape}
    (hshape : builder.ShapeFrom Below request earlier collected shape)
    (hbranches : ∀ branch ∈ request.branches, Branch.Within builder.schema whole branch)
    {entry : Name × Merged} (hentry : entry ∈ collected.fields) {path : Path}
    {parents : List Shape} {field : Field}
    (h : builder.FieldFrom Below path parents entry field) :
    field.vars ⊆ Use.names (Resolved.allUses builder.schema whole) := by
  have hwithin := fun {o} => within_of_collect hschema hif hshape.collects hbranches hentry (o := o)
  intro name hname
  rcases List.mem_append.1 hname with hname | hname
  · rw [h.condition] at hname
    obtain ⟨condition, hcondition, hname⟩ := Condition.exists_of_mem_names_any hname
    obtain ⟨o, ho, rfl⟩ := List.mem_map.1 hcondition
    exact (hwithin ho).2.names hname
  · -- arguments are those of the narrowest occurrence
    obtain ⟨argument, hargument, hname⟩ := List.mem_flatMap.1 hname
    obtain ⟨written, hwritten, hresult⟩ := exists_of_forall₂_of_mem h.arguments hargument
    have hnode := (hwithin (builder.narrowest_mem entry.2)).1
    refine Use.names_subset (Resolved.ownUses_subset_allUses hnode) ?_
    exact Use.names_subset (List.subset_append_right _ _)
      (vars_subset_of_argument hwritten hresult hname)

/-- The variables that the fields of a tree refer to are used in the selections of the tree. -/
theorem DataFieldFrom.vars_subset {type : Name} {root : Path} {data : Field}
    (h : builder.DataFieldFrom type whole root data) :
    ∀ field ∈ data.all, field.vars ⊆ Use.names (Resolved.allUses builder.schema whole) := by
  intro field hfield
  rcases Field.mem_all_iff_top_or_fields.1 hfield with rfl | ⟨shape, hshape, hfield⟩
  · rw [Field.vars, h.condition, h.arguments]
    exact List.nil_subset _
  · let Q : Request → Prop := fun request =>
      ∀ branch ∈ request.branches, Branch.Within builder.schema whole branch
    have hroot : Q (rootRequest type whole root) :=
      List.forall_mem_singleton.2 ⟨List.Subset.refl _, List.nil_subset _⟩
    obtain ⟨request, earlier, collected, entry, hQ, hshapeFrom, hentry, hfrom⟩ :=
      h.fills.exists_fieldFrom (Q := Q) hroot
        (fun request around earlier shape later collected entry _ _ hQ _ hshapeFrom hentry => by
          intro branch hbranch
          obtain ⟨o, ho, rfl⟩ := List.mem_map.1 hbranch
          exact (within_of_collect hschema hif hshapeFrom.collects hQ hentry ho).2)
        hshape hfield
    exact hfrom.vars_subset hschema hif hshapeFrom hQ hentry

end Builder

/-! ## Inferred variables -/

namespace Linked

theorem inferredVariable_result {schema : Schema} {entry : Name × TypeRef} {var : Variable}
    (h : (inferredVariable schema entry).result = .ok var) :
    var.name = entry.1 ∧ schema.modelType entry.2 = .ok var.type := by
  obtain ⟨type, htype, h⟩ := Traced.result_bind_eq_ok.1 h
  obtain rfl := Except.ok.inj h
  exact ⟨rfl, Traced.result_mapType.1 htype⟩

theorem names_of_inferredVariables {schema : Schema} {inferred : List (Name × TypeRef)}
    {vars : List Variable}
    (h : List.Forall₂ (fun entry var => (inferredVariable schema entry).result = .ok var) inferred
      vars) : vars.map Variable.name = inferred.map Prod.fst := by
  induction h with
  | nil => rfl
  | cons hvar _ ih => rw [List.map_cons, List.map_cons, ih, (inferredVariable_result hvar).1]

/-- The variables that are used in the selections of a fragment are inferred for it. -/
theorem LinkedFrom.names_subset_vars {schema : Schema} {documents accompanying : List Document}
    {linked : Linked} (hfrom : LinkedFrom schema documents accompanying linked)
    (hacyclic : linked.library.Acyclic) {built : List (Name × FragmentModel)} {name : Name}
    {fragment : LinkedFragment} (hlookup : linked.fragments.lookup name = some fragment)
    {fragmentModel : FragmentModel}
    (h : (Linked.fragmentModel linked.schema built fragment).result = .ok fragmentModel) :
    Use.names (Resolved.allUses linked.schema fragment.selections) ⊆
      fragmentModel.vars.map Variable.name := by
  obtain ⟨inferred, hinferred, hvars⟩ := vars_of_fragmentModel h
  rw [names_of_inferredVariables hvars]
  have hfound := hfrom.allUses_subset_usesAll hacyclic (hfrom.resolution_fragment hacyclic hlookup)
  exact List.Subset.trans (Use.names_subset hfound)
    (Inference.typesOf_infer hinferred).names_subset

end Linked

/-- **The inferred variables of a fragment cover its tree.**  Let `@skip` and `@include` have an
argument `if` in the schema, let them name no other argument in the fragments of the documents, and
let no fragment spread itself.  In a model of the documents, every variable that a field in the tree
of a fragment refers to, in its condition or anywhere in the value of an argument, is a variable of
the fragment. -/
theorem mem_vars_of_mem_field_vars {options : Options} {schema : Schema}
    {documents accompanying : List Document}
    {linked : Linked} {config : Config} {model : Model}
    (hlink : Linked.ofDocuments options schema documents accompanying = .ok linked)
    (hbuild : (linked.build config).result = .ok model) (hacyclic : linked.library.Acyclic)
    (hschema : schema.DeclaresIf)
    (hif : ∀ document ∈ documents ++ accompanying, ∀ fragment ∈ document.fragments,
      ∀ directive ∈ Selection.directivesAll fragment.selections, directive.NamesIf) :
    ∀ fragment ∈ model.fragments, ∀ field ∈ fragment.dataField.all, ∀ name ∈ field.vars,
      name ∈ fragment.vars.map Variable.name := by
  intro fragmentModel hmem field hfield name hname
  have hfrom := Linked.linkedFrom hlink
  obtain ⟨order, built, hparts⟩ := Linked.buildFrom_of_result hbuild
  obtain ⟨own, before, after, hsplit⟩ := hparts.exists_built hmem
  obtain ⟨fragment, hlookup, hresult⟩ := hparts.fragmentModel_split hsplit
  have hlibrary : ∀ entry ∈ linked.library.entries,
      ∀ directive ∈ Selection.directivesAll entry.2.fragment.selections, directive.NamesIf := by
    rw [hfrom.library_eq]
    intro entry hentry
    obtain ⟨-, document, hdocument, hfragment⟩ := Library.mem_entries hentry
    exact hif document hdocument entry.2.fragment hfragment
  have hnodes := (hfrom.resolution_fragment hacyclic hlookup).forall_directives hlibrary
    (hlibrary _ (mem_of_lookup_eq_some (hfrom.entry?_eq hlookup)))
  have huses := (Linked.fragmentModel_result hresult).2.vars_subset
    (show linked.schema.DeclaresIf from hfrom.schema_eq.symm ▸ hschema) hnodes field hfield
  exact hfrom.names_subset_vars hacyclic hlookup hresult (huses hname)

/-! ## Orders

The summary of an order spreads its lines twice: behind a condition, and below the order before it,
where the search for variables passes by. -/

namespace Orders

open Sample (definition declaration select)

/-- An argument or an input field without a default. -/
def input (name : Name) (type : TypeRef) : InputDefinition := ⟨name, type, none, none, []⟩

def schema : Schema where
  queryRoot := some "Query"
  mutationRoot := none
  subscriptionRoot := none
  types :=
    [declaration "Query" (.object [] [definition "order" "Order"]),
      declaration "Order" (.object []
        [definition "number" "Int", definition "previous" "Order",
          { definition "lines" "Line" with
            arguments := [input "filter" (.named "Filter" false)] }]),
      declaration "Line" (.object [] [definition "price" "Int"]),
      declaration "Filter" (.inputObject
        [input "tags" (.list (.named "String" true) false), input "other" (.named "Filter" false),
          input "least" (.named "Int" false)])]
  directives := []

/-- The filter of the lines has variables in an object in an object and in a list. -/
def filter : Literal :=
  .object [("tags", .list [.string "new", .var "tag"]),
    ("other", .object [("least", .var "least")])]

def document : Document where
  path := none
  operations := []
  fragments :=
    [⟨"Summary", "Order", [],
        [select "number" [] [], .spread "Lines" [⟨"skip", [("if", .var "brief")]⟩],
          select "previous" [] [.spread "Lines" []]]⟩,
      ⟨"Lines", "Order", [],
        [.field ⟨none, "lines", [("filter", filter)], [⟨"include", [("if", .var "detailed")]⟩]⟩
          [select "price" [] []]]⟩]

theorem links : (Linked.ofDocuments .standard schema [document] []).toOption.isSome = true := by
  decide +kernel

/-- The documents, linked. -/
def linked : Linked := (Linked.ofDocuments .standard schema [document] []).toOption.get links

theorem builds : (linked.build ⟨[]⟩).result.toOption.isSome = true := by decide +kernel

/-- The model of the documents. -/
def model : Model := (linked.build ⟨[]⟩).result.toOption.get builds

theorem acyclic : linked.library.Acyclic :=
  Library.acyclic_of_rank (fun name => if name = "Summary" then 1 else 0) (by decide +kernel)

end Orders

theorem mem_vars_of_mem_field_vars_orders :
    Linked.ofDocuments .standard Orders.schema [Orders.document] [] = .ok Orders.linked ∧
    (Orders.linked.build ⟨[]⟩).result = .ok Orders.model ∧
    Orders.linked.library.Acyclic ∧ Orders.schema.DeclaresIf ∧
    (∀ document ∈ [Orders.document] ++ [], ∀ fragment ∈ document.fragments,
      ∀ directive ∈ Selection.directivesAll fragment.selections, directive.NamesIf) ∧
    Orders.model.fragments.map (fun fragment => fragment.dataField.all.map Field.vars) =
      [[[], [], ["brief", "detailed", "tag", "least"], ["brief", "detailed"], [],
          ["detailed", "tag", "least"], ["detailed"]],
        [[], ["detailed", "tag", "least"], ["detailed"]]] ∧
    Orders.model.fragments.map (fun fragment => fragment.vars.map Variable.name) =
      [["brief", "detailed", "tag", "least"], ["detailed", "tag", "least"]] ∧
    ∀ fragment ∈ Orders.model.fragments, ∀ field ∈ fragment.dataField.all, ∀ name ∈ field.vars,
      name ∈ fragment.vars.map Variable.name := by
  have hlink := except_eq_ok_get Orders.links
  have hbuild := except_eq_ok_get Orders.builds
  have hschema : Orders.schema.DeclaresIf := by decide +kernel
  have hif : ∀ document ∈ [Orders.document] ++ [], ∀ fragment ∈ document.fragments,
      ∀ directive ∈ Selection.directivesAll fragment.selections, directive.NamesIf := by
    decide +kernel
  exact ⟨hlink, hbuild, Orders.acyclic, hschema, hif, by decide +kernel, by decide +kernel,
    mem_vars_of_mem_field_vars hlink hbuild Orders.acyclic hschema hif⟩

end ResponseModel
