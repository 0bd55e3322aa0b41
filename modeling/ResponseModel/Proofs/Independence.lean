import ResponseModel.Proofs.Agreement
import ResponseModel.Proofs.Dependencies
import ResponseModel.Proofs.ModelTrees
import ResponseModel.Proofs.RequestText

/-!
# What a model depends on

A definition is built in the presence of all others: its spreads are looked up in the library, and
the shapes that it can refine among the fragments that happen to be built before it.  Of these only
the fragments that it spreads, directly or through others, have an effect.  Resolved selections are
the same in two libraries that define these alike (`Resolution.transfer`); a tree is the same after
any fragments, if those that it spreads have the same shapes (`SameShapes.dataField_eq`); and so are
the models of a fragment and of an operation (`fragmentModel_congr`, `operationModel_congr`).  Main
statement: `models_eq_of_definitions_eq`.
-/

namespace ResponseModel

/-! ## Selections -/

namespace Library

variable {library library' : Library} {schema : Schema}

theorem exists_entry_of_definition?_eq {name : Name} {entry : Entry}
    (hentry : library.entry? name = some entry)
    (h : library.definition? name = library'.definition? name) :
    ∃ entry', library'.entry? name = some entry' ∧ entry'.fragment = entry.fragment := by
  rw [definition?, hentry, Option.map_some] at h
  exact Option.map_eq_some_iff.1 h.symm

/-- Resolving selections depends on the definitions that they reach only. -/
theorem Resolution.transfer {parent : Name} {written : List Selection} {resolved : List Resolved}
    (h : library.Resolution schema parent written resolved)
    (hsame : ∀ name, library.Reaches written name →
      library.definition? name = library'.definition? name) :
    library'.Resolution schema parent written resolved := by
  induction h with
  | nil => exact .nil
  | field hdefinition _ _ ihbelow ihrest =>
      simp only [reaches_cons_field] at hsame
      exact .field hdefinition (ihbelow fun name hname => hsame name (.inl hname))
        (ihrest fun name hname => hsame name (.inr hname))
  | inline _ _ ihbelow ihrest =>
      simp only [reaches_cons_inline] at hsame
      exact .inline (ihbelow fun name hname => hsame name (.inl hname))
        (ihrest fun name hname => hsame name (.inr hname))
  | spread hentry _ _ ihbelow ihrest =>
      simp only [reaches_cons_spread] at hsame
      obtain ⟨entry', hentry', hfragment⟩ :=
        exists_entry_of_definition?_eq hentry (hsame _ (.inl .refl))
      have hbelow := ihbelow fun name hname => hsame name (.inl (hname.path hentry))
      rw [← hfragment] at hbelow ⊢
      exact .spread hentry' hbelow (ihrest fun name hname => hsame name (.inr hname))
  | undefined hnone _ ihrest =>
      simp only [reaches_cons_spread] at hsame
      have hname := hsame _ (.inl .refl)
      rw [definition?, hnone, Option.map_none] at hname
      exact .undefined (Option.map_eq_none_iff.1 hname.symm)
        (ihrest fun name hname => hsame name (.inr hname))

end Library

/-! ## Trees -/

namespace Builder

variable {builder builder' : Builder} {selections : List Resolved}

/-- The builders know the same shapes for every fragment that is spread in the selections. -/
def SameShapes (builder builder' : Builder) (selections : List Resolved) : Prop :=
  ∀ name directives type below,
    .spread name directives type below ∈ Resolved.nodesAll selections →
    builder.fragmentShapes.lookup name = builder'.fragmentShapes.lookup name

/-- Whatever is asked for in a tree has its selections from the top of the tree, so that no other
fragments are merged into a shape. -/
theorem SameShapes.simulation (hshapes : SameShapes builder builder' selections)
    (hschema : builder.schema = builder'.schema) :
    Simulation True builder builder' fun request request' => request = request' ∧
      ∀ part ∈ request.branches.map Prod.fst,
        Resolved.nodesAll part ⊆ Resolved.nodesAll selections where
  schema := hschema
  sameField := by
    rintro request _ ⟨rfl, -⟩
    exact ⟨rfl, rfl, rfl⟩
  conditions := by
    rintro request _ ⟨rfl, -⟩
    exact (Agree.refl _).imp fun conditions conditions' _ hsame => by rw [hsame.1]
  collected := by
    rintro request _ conditions typeSet ⟨rfl, hsub⟩ - -
    refine (Agree.refl _).imp ?_
    rintro collected _ hcollect ⟨rfl, -⟩
    refine ⟨List.forall₂_same.2 fun entry hentry => ?_, fun _ earlier => ?_⟩
    · have hnarrowest : builder.narrowest entry.2 = builder'.narrowest entry.2 := by
        rw [narrowest, narrowest, hschema]
      refine ⟨rfl, by rw [hnarrowest], by rw [hnarrowest], rfl, ?_⟩
      intro type _ _ path parents parents' hparents
      refine ⟨?_, nodesAll_subset_of_collect hcollect hsub hentry⟩
      rw [requestBelow, requestBelow, hnarrowest, hparents trivial]
    · have hlookup : ∀ name ∈ collected.fragments,
          builder.fragmentShapes.lookup name = builder'.fragmentShapes.lookup name := by
        intro name hname
        obtain ⟨type, below, hmerges⟩ := merges_of_mem_fragments hcollect hname
        obtain ⟨part, hpart, directives, hnode⟩ := hmerges.spread
        exact hshapes name directives type below (hsub part hpart hnode)
      have hfragments : collected.fragments.flatMap
            (fun name => (builder.fragmentShapes.lookup name).getD []) =
          collected.fragments.flatMap
            (fun name => (builder'.fragmentShapes.lookup name).getD []) :=
        List.flatMap_congr fun name hname => by rw [hlookup name hname]
      rw [candidates, candidates, hfragments]

/-- **A tree depends on the fragments that it spreads only.** -/
theorem SameShapes.dataField_eq (hshapes : SameShapes builder builder' selections)
    (hschema : builder.schema = builder'.schema) (type : Name) (root : Path) :
    (builder.dataField type selections root).result =
      (builder'.dataField type selections root).result := by
  refine (((hshapes.simulation hschema).dataField ⟨rfl, ?_⟩ rfl).imp ?_).eq
  · exact List.forall_mem_singleton.2 (List.Subset.refl _)
  · exact fun data data' _ hlike => hlike.2 trivial

end Builder

/-! ## Models -/

namespace Linked

variable {schema : Schema} {before before' : List (Name × FragmentModel)}

theorem sameShapes_of_lookup {selections : List Resolved}
    (h : ∀ name directives type below,
      .spread name directives type below ∈ Resolved.nodesAll selections →
      ∃ model model', before.lookup name = some model ∧ before'.lookup name = some model' ∧
        model.dataField = model'.dataField) :
    (builderAfter schema before).SameShapes (builderAfter schema before') selections := by
  intro name directives type below hnode
  obtain ⟨model, model', hmodel, hmodel', hdata⟩ := h name directives type below hnode
  rw [lookup_fragmentShapes.2 ⟨model, hmodel, rfl⟩,
    lookup_fragmentShapes.2 ⟨model', hmodel', rfl⟩, hdata]

/-- The model of a fragment is the same after any fragments, if those that are spread in its
selections have the same shapes. -/
theorem fragmentModel_congr {fragment : LinkedFragment}
    (hshapes : (builderAfter schema before).SameShapes (builderAfter schema before')
      fragment.selections) :
    (fragmentModel schema before' fragment).result =
      (fragmentModel schema before fragment).result := by
  have hdata := hshapes.dataField_eq rfl fragment.entry.fragment.onType
    (.atRoot fragment.entry.fragment.name .fragment)
  rw [builderAfter, builderAfter] at hdata
  simp only [fragmentModel, Traced.result_bind, ← hdata]

/-- Of the entry of a fragment its model has the definition and the path of the file. -/
theorem fragmentModel_of_definition_eq {fragment fragment' : LinkedFragment}
    (hdefinition : fragment'.entry.fragment = fragment.entry.fragment)
    (hselections : fragment'.selections = fragment.selections) :
    (fragmentModel schema before fragment').result =
      (fragmentModel schema before fragment).result.map
        fun model => { model with filePath := fragment'.entry.filePath } := by
  simp only [fragmentModel, Traced.result_bind, hdefinition, hselections, except_map_bind]
  rfl

/-- The text of a request depends on the definitions in it. -/
theorem requestText_congr {library library' : Library} {names : List Name}
    (h : ∀ name ∈ names, library'.definition? name = library.definition? name)
    (options : Options) (operation : Operation) :
    requestText options library' operation names = requestText options library operation names := by
  rw [requestText_eq, requestText_eq, Library.definitions, Library.definitions,
    List.filterMap_congr h]

/-- The model of an operation is the same after any fragments, if those that are spread in its
selections have the same shapes and those that it reaches the same definitions. -/
theorem operationModel_congr {linked linked' : Linked} {operation : LinkedOperation}
    (hoptions : linked'.options = linked.options) (hschema : linked'.schema = linked.schema)
    (hshapes : (builderAfter linked.schema before).SameShapes (builderAfter linked.schema before')
      operation.selections)
    (hreached : ∀ reached, Resolved.reachedFragments operation.selections = .ok reached →
      ∀ name ∈ reached, linked'.library.definition? name = linked.library.definition? name) :
    (operationModel linked' before' operation).result =
      (operationModel linked before operation).result := by
  unfold operationModel
  rw [hoptions, hschema]
  cases operation.operation.name with
  | none => rfl
  | some name =>
      cases linked.schema.root? operation.operation.kind with
      | none => rfl
      | some root =>
          have hdata := hshapes.dataField_eq rfl operation.onType
            (.atRoot name .operationImplementation)
          rw [builderAfter, builderAfter] at hdata
          simp only [Traced.result_bind, ← hdata]
          refine bind_congr fun vars => bind_congr fun data =>
            except_bind_congr fun reached hfound => ?_
          rw [requestText_congr (hreached reached (Traced.result_ofDocument.1 hfound))]

/-- The model of an operation has the path of its file. -/
theorem operationModel_withFile (linked : Linked) (operation : LinkedOperation)
    (filePath : String) :
    (operationModel linked before { operation with filePath }).result =
      (operationModel linked before operation).result.map
        fun model => { model with filePath } := by
  unfold operationModel
  cases operation.operation.name with
  | none => rfl
  | some name =>
      cases linked.schema.root? operation.operation.kind with
      | none => rfl
      | some root =>
          simp only [Traced.result_bind, except_map_bind]
          rfl

/-! ## Two builds -/

theorem onType_of_mem_operations {options : Options} {documents accompanying : List Document}
    {linked : Linked} (h : ofDocuments options schema documents accompanying = .ok linked)
    {operation : LinkedOperation} (hmem : operation ∈ linked.operations) :
    operation.onType =
      (schema.root? operation.operation.kind).getD (defaultRoot operation.operation.kind) := by
  obtain ⟨-, -, -, -, hoperations⟩ := ofDocuments_eq_ok.1 h
  obtain ⟨written, -, hwritten⟩ := exists_of_forall₂_of_mem hoperations hmem
  obtain ⟨selections, -, hwritten⟩ := except_bind_eq_ok.1 hwritten
  obtain rfl := Except.ok.inj hwritten
  rfl

section TwoBuilds

variable {documents accompanying documents' accompanying' : List Document} {linked linked' : Linked}
  {model model' : Model} {order order' : List Name} {built built' : List (Name × FragmentModel)}
  (hfrom : LinkedFrom schema documents accompanying linked)
  (hfrom' : LinkedFrom schema documents' accompanying' linked')
  (hacyclic : linked.library.Acyclic) (hacyclic' : linked'.library.Acyclic)
include hfrom hfrom' hacyclic hacyclic'

/-- A fragment that both libraries define alike, with all that it spreads, has the same resolved
selections in both. -/
theorem LinkedFrom.exists_same_fragment {name : Name} {fragment : LinkedFragment}
    (hlookup : linked.fragments.lookup name = some fragment)
    (hsame : ∀ other, Relation.ReflTransGen linked.library.Spreads name other →
      linked.library.definition? other = linked'.library.definition? other) :
    ∃ fragment', linked'.fragments.lookup name = some fragment' ∧
      fragment'.entry.fragment = fragment.entry.fragment ∧
      fragment'.selections = fragment.selections := by
  have hentry := hfrom.entry?_eq hlookup
  obtain ⟨entry', hentry', hdefinition⟩ :=
    Library.exists_entry_of_definition?_eq hentry (hsame name .refl)
  obtain ⟨fragment', hlookup', rfl⟩ := hfrom'.exists_fragment hentry'
  refine ⟨fragment', hlookup', hdefinition, ?_⟩
  have hresolution := (hfrom.resolution_fragment hacyclic hlookup).transfer
    fun other hother => hsame other (hother.path hentry)
  rw [← hdefinition] at hresolution
  exact (hfrom'.resolution_fragment hacyclic' hlookup').unique hresolution

variable (hparts : linked.BuildFrom order built model)
  (hparts' : linked'.BuildFrom order' built' model')
include hparts hparts'

/-- A fragment that both libraries define alike, with all that it spreads, has the same model in
both builds, up to the path of its file. -/
theorem BuildFrom.exists_same_model {before after : List (Name × FragmentModel)} {name : Name}
    {fragmentModel : FragmentModel} (hsplit : built = before ++ (name, fragmentModel) :: after)
    (hsame : ∀ other, Relation.ReflTransGen linked.library.Spreads name other →
      linked.library.definition? other = linked'.library.definition? other) :
    ∃ fragmentModel', built'.lookup name = some fragmentModel' ∧
      fragmentModel' = { fragmentModel with filePath := fragmentModel'.filePath } := by
  -- the fragments that it spreads are built before it
  induction hlength : before.length using Nat.strong_induction_on
    generalizing before after name fragmentModel with
  | _ length ih =>
  subst hlength
  obtain ⟨fragment, hlookup, hmodel⟩ := hparts.fragmentModel_split hsplit
  obtain ⟨fragment', hlookup', hdefinition, hselections⟩ :=
    hfrom.exists_same_fragment hfrom' hacyclic hacyclic' hlookup hsame
  obtain ⟨⟨_, fragmentModel'⟩, hmem', rfl⟩ :=
    (hparts'.ordered hfrom' hacyclic').2 name fragment' hlookup'
  obtain ⟨before', after', hsplit'⟩ := List.append_of_mem hmem'
  obtain ⟨_, hagain, hmodel'⟩ := hparts'.fragmentModel_split hsplit'
  obtain rfl := Option.some.inj (hlookup'.symm.trans hagain)
  have hshapes : (builderAfter schema before).SameShapes (builderAfter schema before')
      fragment.selections := by
    refine sameShapes_of_lookup fun other directives type below hnode => ?_
    obtain ⟨earlier, hearlier⟩ := exists_lookup_of_exists_mem
      (hparts.exists_before_fragment hfrom hacyclic hsplit hlookup hnode)
    obtain ⟨earlier', hearlier'⟩ := exists_lookup_of_exists_mem
      (hparts'.exists_before_fragment hfrom' hacyclic' hsplit' hlookup' (hselections ▸ hnode))
    have hbuilt' : built'.lookup other = some earlier' := by
      rw [hsplit', List.lookup_append, hearlier', Option.some_or]
    obtain ⟨first, last, rfl⟩ := List.append_of_mem (mem_of_lookup_eq_some hearlier)
    have hpath : Relation.ReflTransGen linked.library.Spreads _ other :=
      Library.Reaches.path (hfrom.entry?_eq hlookup)
        ((hfrom.resolution_fragment hacyclic hlookup).exists_path hnode)
    obtain ⟨_, hlookupOther, hlike⟩ := ih first.length (by simp)
      (hsplit.trans (List.append_assoc ..))
      (fun target htarget => hsame target (hpath.trans htarget)) rfl
    obtain rfl := Option.some.inj (hbuilt'.symm.trans hlookupOther)
    exact ⟨earlier, earlier', hearlier, hearlier', by rw [hlike]⟩
  rw [hfrom.schema_eq] at hmodel
  rw [hfrom'.schema_eq, fragmentModel_of_definition_eq hdefinition hselections,
    fragmentModel_congr hshapes, hmodel] at hmodel'
  obtain rfl := Except.ok.inj hmodel'
  exact ⟨_, lookup_eq_some_of_mem hparts'.nodup_built hmem', rfl⟩

/-- An operation that reaches fragments only that both libraries define alike has the same model in
both builds, up to the path of its file. -/
theorem BuildFrom.operationModel_eq {operation operation' : LinkedOperation}
    {operationModel operationModel' : OperationModel} (hmem : operation ∈ linked.operations)
    (hmem' : operation' ∈ linked'.operations)
    (hoptions : linked'.options = linked.options)
    (hdefinition : operation'.operation = operation.operation)
    (htype : operation'.onType = operation.onType)
    (hmodel : (Linked.operationModel linked built operation).result = .ok operationModel)
    (hmodel' : (Linked.operationModel linked' built' operation').result = .ok operationModel')
    (hsame : ∀ name, linked.library.Reaches operation.operation.selections name →
      linked.library.definition? name = linked'.library.definition? name) :
    operationModel' = { operationModel with filePath := operationModel'.filePath } := by
  have hresolution := hfrom.resolution_operation hacyclic hmem
  have hselections : operation'.selections = operation.selections := by
    have hresolution' := hfrom'.resolution_operation hacyclic' hmem'
    rw [hdefinition, htype] at hresolution'
    exact hresolution'.unique (hresolution.transfer hsame)
  have hshapes : (builderAfter linked.schema built).SameShapes (builderAfter linked.schema built')
      operation.selections := by
    refine sameShapes_of_lookup fun name directives type below hnode => ?_
    obtain ⟨⟨_, fragmentModel⟩, hbuilt, rfl⟩ :=
      hparts.exists_built_operation hfrom hacyclic hmem hnode
    obtain ⟨first, hfirst, hpath⟩ := hresolution.exists_path hnode
    obtain ⟨before, after, hsplit⟩ := List.append_of_mem hbuilt
    obtain ⟨fragmentModel', hlookup', hlike⟩ :=
      hparts.exists_same_model hfrom hfrom' hacyclic hacyclic' hparts' hsplit
        fun other hother => hsame other ⟨first, hfirst, hpath.trans hother⟩
    exact ⟨fragmentModel, fragmentModel', lookup_eq_some_of_mem hparts.nodup_built hbuilt, hlookup',
      by rw [hlike]⟩
  have hreached : ∀ reached, Resolved.reachedFragments operation.selections = .ok reached →
      ∀ name ∈ reached, linked'.library.definition? name = linked.library.definition? name := by
    intro reached hreached name hname
    obtain ⟨written, -, hwritten, -, hresolve⟩ := exists_of_forall₂_of_mem hfrom.operations hmem
    rw [← hwritten] at hresolve
    exact (hsame name ((Library.mem_reachedFragments hresolve hreached).1 hname)).symm
  have hoperation : operation' = { operation with filePath := operation'.filePath } := by
    rw [← hdefinition, ← htype, ← hselections]
  rw [hoperation, operationModel_withFile,
    operationModel_congr hoptions (hfrom'.schema_eq.trans hfrom.schema_eq.symm) hshapes hreached,
    hmodel] at hmodel'
  obtain rfl := Except.ok.inj hmodel'
  rfl

end TwoBuilds

end Linked

/-- **A model depends on what its definition uses only.**

Build the models of two sets of documents over one schema, with any other definitions in them, in
any order and with any configuration, so that no fragment spreads itself in either set.  An
operation that is part of both sets has the same model in both, up to the path of its file, if
every fragment that it spreads, directly or through others, has the same definition in both.  The
same holds for a fragment. -/
theorem models_eq_of_definitions_eq (options : Options) (schema : Schema)
    (documents accompanying documents' accompanying' : List Document) (linked linked' : Linked)
    (config config' : Config) (model model' : Model)
    (hlink : Linked.ofDocuments options schema documents accompanying = .ok linked)
    (hlink' : Linked.ofDocuments options schema documents' accompanying' = .ok linked')
    (hbuild : (linked.build config).result = .ok model)
    (hbuild' : (linked'.build config').result = .ok model')
    (hacyclic : linked.library.Acyclic) (hacyclic' : linked'.library.Acyclic) :
    (∀ operation operationModel operationModel',
      (operation, operationModel) ∈ (documents.flatMap Document.inOrder).zip model.operations →
      (operation, operationModel') ∈ (documents'.flatMap Document.inOrder).zip model'.operations →
      (∀ name, linked.library.Reaches operation.selections name →
        linked.library.definition? name = linked'.library.definition? name) →
      operationModel' = { operationModel with filePath := operationModel'.filePath }) ∧
    ∀ fragmentModel ∈ model.fragments, ∀ fragmentModel' ∈ model'.fragments,
      fragmentModel'.name = fragmentModel.name →
      (∀ name, Relation.ReflTransGen linked.library.Spreads fragmentModel.name name →
        linked.library.definition? name = linked'.library.definition? name) →
      fragmentModel' = { fragmentModel with filePath := fragmentModel'.filePath } := by
  have hfrom := Linked.linkedFrom hlink
  have hfrom' := Linked.linkedFrom hlink'
  obtain ⟨order, built, hparts⟩ := Linked.buildFrom_of_result hbuild
  obtain ⟨order', built', hparts'⟩ := Linked.buildFrom_of_result hbuild'
  constructor
  · intro written operationModel operationModel' hzip hzip' hsame
    obtain ⟨operation, hmem, rfl, hmodel⟩ :=
      (List.forall₂_iff_zip.1 (hparts.forall₂_written hfrom)).2 hzip
    obtain ⟨operation', hmem', hdefinition, hmodel'⟩ :=
      (List.forall₂_iff_zip.1 (hparts'.forall₂_written hfrom')).2 hzip'
    have htype : operation'.onType = operation.onType := by
      rw [Linked.onType_of_mem_operations hlink hmem,
        Linked.onType_of_mem_operations hlink' hmem', hdefinition]
    have hoptions : linked'.options = linked.options := by
      rw [Linked.options_of_ofDocuments hlink, Linked.options_of_ofDocuments hlink']
    exact hparts.operationModel_eq hfrom hfrom' hacyclic hacyclic' hparts' hmem hmem' hoptions
      hdefinition htype hmodel hmodel' hsame
  · intro fragmentModel hmem fragmentModel' hmem' hname hsame
    obtain ⟨name, before, after, hsplit⟩ := hparts.exists_built hmem
    obtain ⟨name', before', after', hsplit'⟩ := hparts'.exists_built hmem'
    have hentry : (name, fragmentModel) ∈ built := by simp [hsplit]
    have hentry' : (name', fragmentModel') ∈ built' := by simp [hsplit']
    have hself : fragmentModel.name = name := hparts.name_eq hfrom hentry
    have hself' : fragmentModel'.name = name' := hparts'.name_eq hfrom' hentry'
    rw [hself] at hsame hname
    obtain ⟨other, hlookup, hlike⟩ :=
      hparts.exists_same_model hfrom hfrom' hacyclic hacyclic' hparts' hsplit hsame
    have hlookup' := lookup_eq_some_of_mem hparts'.nodup_built hentry'
    rw [← hself', hname, hlookup] at hlookup'
    rwa [← Option.some.inj hlookup']

/-! ## Kittens

An operation and the fragments that it uses, alone and among other definitions: another file has the
inner of the two fragments and comes first, other fragments spread the outer one, and accompanying
documents have another definition of it, which does not count. -/

namespace Kittens

open Sample (schema select)

def operation : Operation :=
  ⟨.query, some "Kittens", [], [], [select "pet" [] [.spread "Family" []]]⟩

def family : Fragment :=
  ⟨"Family", "Pet", [], [select "name" [] [], select "mate" [] [.spread "Sound" []]]⟩

def sound : Fragment := ⟨"Sound", "Noisy", [], [select "volume" [] []]⟩

def documents : List Document := [⟨none, [operation], [family, sound]⟩]

def among : List Document :=
  [⟨some "sound", [], [sound, ⟨"Loud", "Cat", [], [.spread "Family" []]⟩]⟩,
    ⟨some "kittens",
      [operation, ⟨.query, some "Loud", [], [], [select "pet" [] [.spread "Loud" []]]⟩], [family]⟩]

def accompanying : List Document :=
  [⟨some "old", [], [⟨"Family", "Pet", [], [select "name" [] []]⟩]⟩]

/-- The documents give models of the operation and of the outer fragment, from the given file. -/
def Gives (model : Model) (filePath : String) : Prop :=
  (model.operations.map OperationModel.filePath).head? = some filePath ∧
    (model.fragment? "Family").map FragmentModel.filePath = some filePath

instance (model : Model) (filePath : String) : Decidable (Gives model filePath) :=
  inferInstanceAs (Decidable (_ ∧ _))

theorem Gives.exists_operation {model : Model} {filePath : String} (h : Gives model filePath) :
    ∃ operationModel others, model.operations = operationModel :: others ∧
      operationModel.filePath = filePath := by
  obtain ⟨_, hpaths⟩ := List.head?_eq_some_iff.1 h.1
  obtain ⟨operationModel, others, hmodels, hpath, -⟩ := List.map_eq_cons_iff.1 hpaths
  exact ⟨operationModel, others, hmodels, hpath⟩

theorem Gives.exists_family {model : Model} {filePath : String} (h : Gives model filePath) :
    ∃ fragmentModel ∈ model.fragments, fragmentModel.name = "Family" ∧
      fragmentModel.filePath = filePath := by
  obtain ⟨fragmentModel, hfound, hpath⟩ := Option.map_eq_some_iff.1 h.2
  have hname := List.find?_some hfound
  exact ⟨fragmentModel, List.mem_of_find?_eq_some hfound, of_decide_eq_true hname, hpath⟩

theorem builds : ∃ linked model, Linked.ofDocuments .standard schema documents [] = .ok linked ∧
    (linked.build ⟨[]⟩).result = .ok model ∧ Gives model "" :=
  Linked.exists_of_built? (by decide +kernel)

theorem builds_among : ∃ linked model,
    Linked.ofDocuments .standard schema among accompanying = .ok linked ∧
    (linked.build ⟨[]⟩).result = .ok model ∧ Gives model "kittens" :=
  Linked.exists_of_built? (by decide +kernel)

/-- A fragment spreads those of smaller rank. -/
def rank (name : Name) : Nat := if name = "Loud" then 2 else if name = "Family" then 1 else 0

theorem acyclic : (Library.ofDocuments documents []).Acyclic :=
  Library.acyclic_of_rank rank (by decide +kernel)

theorem acyclic_among : (Library.ofDocuments among accompanying).Acyclic :=
  Library.acyclic_of_rank rank (by decide +kernel)

theorem closed : ∀ entry ∈ (Library.ofDocuments documents []).entries,
    entry.1 ∈ ["Family", "Sound"] → ∀ other ∈ Selection.spreadsAll entry.2.fragment.selections,
      other ∈ ["Family", "Sound"] := by
  decide +kernel

theorem same_definition {name : Name} (h : name ∈ ["Family", "Sound"]) :
    (Library.ofDocuments documents []).definition? name =
      (Library.ofDocuments among accompanying).definition? name := by
  rcases List.mem_pair.1 h with rfl | rfl
  · rfl
  · rfl

end Kittens

theorem models_eq_of_definitions_eq_kittens : ∃ linked linked' model model',
    Linked.ofDocuments .standard Sample.schema Kittens.documents [] = .ok linked ∧
    Linked.ofDocuments .standard Sample.schema Kittens.among Kittens.accompanying = .ok linked' ∧
    (linked.build ⟨[]⟩).result = .ok model ∧ (linked'.build ⟨[]⟩).result = .ok model' ∧
    (∃ operationModel ∈ model.operations, ∃ operationModel' ∈ model'.operations,
      operationModel.filePath = "" ∧
      operationModel' = { operationModel with filePath := "kittens" }) ∧
    ∃ fragmentModel ∈ model.fragments, ∃ fragmentModel' ∈ model'.fragments,
      fragmentModel.name = "Family" ∧ fragmentModel.filePath = "" ∧
      fragmentModel' = { fragmentModel with filePath := "kittens" } := by
  obtain ⟨linked, model, hlink, hbuild, hgives⟩ := Kittens.builds
  obtain ⟨linked', model', hlink', hbuild', hgives'⟩ := Kittens.builds_among
  have hlibrary := (Linked.linkedFrom hlink).library_eq
  have hlibrary' := (Linked.linkedFrom hlink').library_eq
  obtain ⟨hoperations, hfragments⟩ := models_eq_of_definitions_eq _ _ _ _ _ _ _ _ _ _ _ _ hlink
    hlink' hbuild hbuild' (hlibrary ▸ Kittens.acyclic) (hlibrary' ▸ Kittens.acyclic_among)
  rw [hlibrary, hlibrary'] at hoperations hfragments
  have hspreads : ∀ first ∈ Selection.spreadsAll Kittens.operation.selections,
      first ∈ ["Family", "Sound"] := by decide
  obtain ⟨operationModel, _, hmodels, hpath⟩ := hgives.exists_operation
  obtain ⟨operationModel', _, hmodels', hpath'⟩ := hgives'.exists_operation
  obtain ⟨fragmentModel, hmem, hname, hfile⟩ := hgives.exists_family
  obtain ⟨fragmentModel', hmem', hname', hfile'⟩ := hgives'.exists_family
  have hoperation := hoperations Kittens.operation operationModel operationModel'
    (hmodels ▸ List.mem_cons_self) (hmodels' ▸ List.mem_cons_self)
    fun name ⟨first, hfirst, hpath⟩ =>
      Kittens.same_definition (Library.mem_of_path Kittens.closed hpath (hspreads first hfirst))
  have hfragment := hfragments fragmentModel hmem fragmentModel' hmem' (hname'.trans hname.symm)
    fun name hpath =>
      Kittens.same_definition (Library.mem_of_path Kittens.closed hpath (by rw [hname]; decide))
  rw [hpath'] at hoperation
  rw [hfile'] at hfragment
  exact ⟨linked, linked', model, model', hlink, hlink', hbuild, hbuild',
    ⟨operationModel, by simp [hmodels], operationModel', by simp [hmodels'], hpath, hoperation⟩,
    fragmentModel, hmem, fragmentModel', hmem', hname, hfile, hfragment⟩

end ResponseModel
