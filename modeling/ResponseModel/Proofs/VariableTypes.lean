import ResponseModel.Proofs.FragmentVariables

/-!
# The variables of spread fragments

A fragment needs values for its own variables and for those of the fragments that it spreads.  The
types of both are inferred by two searches that go different ways: in the selections of the outer
fragment, what the inner one selects may be reached late, through any of the fragments on the way,
or be passed by because it was reached before.  What the two searches find is still comparable,
since the uses in the inner fragment are among those in the outer one (`uses_subset_of_path`), and
more uses ask for a stricter type (`Inference.TypesOf.exists_le`).  Main statement:
`asStrictAs_of_spreads`.
-/

namespace ResponseModel

/-! ## Uses in spread fragments -/

/-- What a fragment selects is selected wherever it is spread. -/
theorem Library.Resolution.nodesAll_subset {library : Library} {schema : Schema} {parent : Name}
    {written : List Selection} {resolved : List Resolved}
    (h : library.Resolution schema parent written resolved) {name : Name} {entry : Library.Entry}
    (hentry : library.entry? name = some entry) {below : List Resolved}
    (hbelow : library.Resolution schema entry.fragment.onType entry.fragment.selections below)
    (hspread : name ∈ Selection.spreadsAll written) :
    Resolved.nodesAll below ⊆ Resolved.nodesAll resolved := by
  intro node hnode
  induction h with
  | nil => exact absurd hspread List.not_mem_nil
  | field _ _ _ ihbelow ihrest =>
      refine Resolved.mem_nodesAll_field.2 (.inr ?_)
      rcases List.mem_append.1 hspread with hspread | hspread
      · exact .inl (ihbelow hspread)
      · exact .inr (ihrest hspread)
  | inline _ _ ihbelow ihrest =>
      refine Resolved.mem_nodesAll_inline.2 (.inr ?_)
      rcases List.mem_append.1 hspread with hspread | hspread
      · exact .inl (ihbelow hspread)
      · exact .inr (ihrest hspread)
  | spread hentry' hbelow' _ _ ihrest =>
      refine Resolved.mem_nodesAll_spread.2 (.inr ?_)
      rcases List.mem_append.1 hspread with hspread | hspread
      · obtain rfl := List.mem_singleton.1 hspread
        obtain rfl := Option.some.inj (hentry.symm.trans hentry')
        exact .inl (hbelow.unique hbelow' ▸ hnode)
      · exact .inr (ihrest hspread)
  | undefined hnone _ ihrest =>
      refine Resolved.mem_nodesAll_dangling.2 (.inr ?_)
      rcases List.mem_append.1 hspread with hspread | hspread
      · obtain rfl := List.mem_singleton.1 hspread
        rw [hnone] at hentry
        cases hentry
      · exact ihrest hspread

namespace Linked

variable {schema : Schema} {documents accompanying : List Document} {linked : Linked}
  (hfrom : LinkedFrom schema documents accompanying linked)
  (hacyclic : linked.library.Acyclic) {name other : Name} {outer inner : LinkedFragment}
  (houter : linked.fragments.lookup name = some outer)
  (hinner : linked.fragments.lookup other = some inner)
include hfrom hacyclic houter hinner

theorem LinkedFrom.nodesAll_subset_of_spreads (hspreads : linked.library.Spreads name other) :
    Resolved.nodesAll inner.selections ⊆ Resolved.nodesAll outer.selections := by
  obtain ⟨entry, hentry, hspread⟩ := hspreads
  obtain rfl := Option.some.inj ((hfrom.entry?_eq houter).symm.trans hentry)
  exact (hfrom.resolution_fragment hacyclic houter).nodesAll_subset (hfrom.entry?_eq hinner)
    (hfrom.resolution_fragment hacyclic hinner) hspread

/-- The search for the variables of a fragment meets every use in the fragments that it spreads,
directly or through others. -/
theorem LinkedFrom.uses_subset_of_path
    (hpath : Relation.TransGen linked.library.Spreads name other) :
    (Resolved.usesAll linked.schema [] inner.selections).1 ⊆
      (Resolved.usesAll linked.schema [] outer.selections).1 := by
  have hnodes : Resolved.nodesAll inner.selections ⊆ Resolved.nodesAll outer.selections := by
    induction hpath generalizing inner with
    | single hspreads => exact hfrom.nodesAll_subset_of_spreads hacyclic houter hinner hspreads
    | tail _ hspreads ih =>
        -- the fragment before the last spread has a definition, since it spreads the last one
        obtain ⟨entry, hentry, -⟩ := id hspreads
        obtain ⟨middle, hmiddle, -⟩ := hfrom.exists_fragment hentry
        exact List.Subset.trans
          (hfrom.nodesAll_subset_of_spreads hacyclic hmiddle hinner hspreads) (ih hmiddle)
  have hall : Resolved.allUses linked.schema inner.selections ⊆
      Resolved.allUses linked.schema outer.selections := by
    intro use huse
    obtain ⟨node, hnode, huse⟩ := List.mem_flatMap.1 huse
    exact Resolved.ownUses_subset_allUses (hnodes hnode) huse
  intro use huse
  exact hfrom.allUses_subset_usesAll hacyclic (hfrom.resolution_fragment hacyclic houter)
    (hall (Resolved.usesAll_subset_allUses [] huse))

end Linked

/-! ## Types along spreads -/

/-- Among more uses a variable has a type that is at least as strict. -/
theorem Inference.TypesOf.exists_le {uses more : List Use} {types types' : List (Name × TypeRef)}
    (h : TypesOf uses types) (h' : TypesOf more types') (hsub : uses ⊆ more) {name : Name}
    {type : TypeRef} (htype : types.lookup name = some type) :
    ∃ type', types'.lookup name = some type' ∧ type' ≤ type := by
  obtain ⟨position, hposition⟩ := h.used htype
  obtain ⟨type', htype'⟩ := h'.exists_lookup (hsub hposition)
  refine ⟨type', htype', (h.le_iff htype).2 fun position hposition => ?_⟩
  exact (h'.le_iff htype').1 le_rfl position (hsub hposition)

/-- The variables of a fragment have the types that its uses ask for. -/
theorem Linked.BuildFrom.exists_typesOf {schema : Schema} {documents accompanying : List Document}
    {linked : Linked} {model : Model} {order : List Name} {built : List (Name × FragmentModel)}
    (hfrom : LinkedFrom schema documents accompanying linked)
    (hparts : linked.BuildFrom order built model) {fragment : FragmentModel}
    (hfragment : fragment ∈ model.fragments) :
    ∃ written types, linked.fragments.lookup fragment.name = some written ∧
      Inference.TypesOf (Resolved.usesAll linked.schema [] written.selections).1 types ∧
      List.Forall₂ (fun entry var => var.name = entry.1 ∧
        linked.schema.modelType entry.2 = .ok var.type) types fragment.vars := by
  obtain ⟨before, after, written, -, hlookup, hresult⟩ := hparts.exists_definition hfrom hfragment
  obtain ⟨types, hinfer, hvars⟩ := vars_of_fragmentModel hresult
  exact ⟨written, types, hlookup, Inference.typesOf_infer hinfer,
    hvars.imp fun _ _ => inferredVariable_result⟩

/-- **Variables flow along spreads.**  Let no fragment spread itself.  If a fragment of a model
spreads another one, at any depth, directly or through other fragments, then it has every variable
of that fragment, with a type that has the same lists around the same named type and forbids null
wherever the type of the variable in the other fragment does. -/
theorem asStrictAs_of_spreads {options : Options} {schema : Schema}
    {documents accompanying : List Document}
    {linked : Linked} {config : Config} {model : Model}
    (hlink : Linked.ofDocuments options schema documents accompanying = .ok linked)
    (hbuild : (linked.build config).result = .ok model) (hacyclic : linked.library.Acyclic)
    {outer inner : FragmentModel} (houter : outer ∈ model.fragments)
    (hinner : inner ∈ model.fragments)
    (hpath : Relation.TransGen linked.library.Spreads outer.name inner.name) :
    ∀ var ∈ inner.vars, ∃ own ∈ outer.vars,
      own.name = var.name ∧ own.type.AsStrictAs var.type := by
  have hfrom := Linked.linkedFrom hlink
  obtain ⟨order, built, hparts⟩ := Linked.buildFrom_of_result hbuild
  obtain ⟨written, types, hlookup, htypes, hvars⟩ :=
    hparts.exists_typesOf hfrom houter
  obtain ⟨written', types', hlookup', htypes', hvars'⟩ :=
    hparts.exists_typesOf hfrom hinner
  have hsub := hfrom.uses_subset_of_path hacyclic hlookup hlookup' hpath
  intro var hvar
  obtain ⟨entry, hentry, hname, htype⟩ := exists_of_forall₂_of_mem hvars' hvar
  obtain ⟨ownType, hown, hle⟩ :=
    htypes'.exists_le htypes hsub (lookup_eq_some_of_mem htypes'.nodup hentry)
  obtain ⟨own, howner, hownName, hownType⟩ :=
    exists_of_forall₂_of_mem hvars.flip (mem_of_lookup_eq_some hown)
  exact ⟨own, howner, hownName.trans hname.symm, Schema.asStrictAs_of_modelType hle hownType htype⟩

/-! ## Houses

A house spreads its rooms and a room its shelves.  The house uses the tags of the shelves at
positions of its own, which ask for more. -/

namespace Houses

open Orders (input)
open Sample (definition declaration select)

/-- A field with one argument. -/
def tagged (name type : Name) (tags : TypeRef) : FieldDefinition :=
  { definition name type with arguments := [input "tags" tags] }

/-- The field of that name, for the tags `$tags`. -/
def selectTagged (name : Name) (selections : List Selection) : Selection :=
  .field ⟨none, name, [("tags", .var "tags")], []⟩ selections

def schema : Schema where
  queryRoot := some "Query"
  mutationRoot := none
  subscriptionRoot := none
  types :=
    [declaration "Query" (.object [] [definition "place" "Place"]),
      declaration "Place" (.object []
        [definition "part" "Place", tagged "book" "String" (.list (.named "String" false) false),
          tagged "count" "Int" (.list (.named "String" false) true),
          tagged "owner" "String" (.list (.named "String" true) false)])]
  directives := []

def document : Document where
  path := none
  operations := []
  fragments :=
    [⟨"House", "Place", [],
        [selectTagged "owner" [], select "part" [] [.spread "Room" []], selectTagged "count" []]⟩,
      ⟨"Room", "Place", [], [.inline none [] [.spread "Shelf" []]]⟩,
      ⟨"Shelf", "Place", [], [selectTagged "book" []]⟩]

/-- The names of the fragments, with their variables and the types of these. -/
def varTypes (model : Model) : List (Name × List (Name × String)) :=
  model.fragments.map fun fragment =>
    (fragment.name, fragment.vars.map fun var => (var.name, var.type.text))

theorem builds : ∃ linked model, Linked.ofDocuments .standard schema [document] [] = .ok linked ∧
    (linked.build ⟨[]⟩).result = .ok model ∧
    varTypes model = [("House", [("tags", "[String!]!")]), ("Room", [("tags", "[String]")]),
      ("Shelf", [("tags", "[String]")])] :=
  Linked.exists_of_built? (by decide +kernel)

theorem acyclic : (Library.ofDocuments [document] []).Acyclic :=
  Library.acyclic_of_rank
    (fun name => if name = "House" then 2 else if name = "Room" then 1 else 0) (by decide +kernel)

theorem spreads :
    Relation.TransGen (Library.ofDocuments [document] []).Spreads "House" "Shelf" := by
  refine .head (b := "Room") ⟨_, rfl, ?_⟩ (.single ⟨_, rfl, ?_⟩) <;> decide

end Houses

theorem asStrictAs_of_spreads_houses : ∃ linked model,
    Linked.ofDocuments .standard Houses.schema [Houses.document] [] = .ok linked ∧
    (linked.build ⟨[]⟩).result = .ok model ∧ linked.library.Acyclic ∧
    Relation.TransGen linked.library.Spreads "House" "Shelf" ∧
    Houses.varTypes model = [("House", [("tags", "[String!]!")]),
      ("Room", [("tags", "[String]")]), ("Shelf", [("tags", "[String]")])] ∧
    ∃ outer ∈ model.fragments, ∃ inner ∈ model.fragments,
      outer.name = "House" ∧ inner.name = "Shelf" ∧
      ∀ var ∈ inner.vars, ∃ own ∈ outer.vars,
        own.name = var.name ∧ own.type.AsStrictAs var.type := by
  obtain ⟨linked, model, hlink, hbuild, hvarTypes⟩ := Houses.builds
  have hlibrary := (Linked.linkedFrom hlink).library_eq
  have hacyclic : linked.library.Acyclic := hlibrary ▸ Houses.acyclic
  have hpath : Relation.TransGen linked.library.Spreads "House" "Shelf" :=
    hlibrary ▸ Houses.spreads
  have hmem : ∀ name ∈ ["House", "Room", "Shelf"],
      ∃ fragment ∈ model.fragments, fragment.name = name := by
    have hnames := congrArg (List.map Prod.fst) hvarTypes
    rw [Houses.varTypes, List.map_map] at hnames
    intro name hname
    exact List.mem_map.1 (show name ∈ model.fragments.map FragmentModel.name from hnames ▸ hname)
  obtain ⟨outer, houter, houterName⟩ := hmem "House" (by simp)
  obtain ⟨inner, hinner, hinnerName⟩ := hmem "Shelf" (by simp)
  exact ⟨linked, model, hlink, hbuild, hacyclic, hpath, hvarTypes, outer, houter, inner, hinner,
    houterName, hinnerName, asStrictAs_of_spreads hlink hbuild hacyclic houter hinner
      (houterName ▸ hinnerName ▸ hpath)⟩

end ResponseModel
