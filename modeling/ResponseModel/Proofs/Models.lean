import Mathlib.Data.List.Nodup
import ResponseModel.Proofs.BuildOrder
import ResponseModel.Proofs.Marks
import ResponseModel.Proofs.Trees

/-!
# What a successful build of documents has done

The library of fragments names every fragment once, by its own name (`Library.nodup_names`,
`Library.mem_entries`).  A successful build of linked documents is taken apart into the
builds of the fragments, each after the fragments that come before it in the build order, and of
the operations (`Linked.BuildFrom`); each of them builds the top of a tree from a selection set
(`Builder.DataFieldFrom`).
-/

namespace ResponseModel

/-! ## The library -/

theorem mem_put {β : Type} {key : Name} {value : β} {entries : List (Name × β)}
    {entry : Name × β} (h : entry ∈ put key value entries) :
    entry = (key, value) ∨ entry ∈ entries := by
  induction entries with
  | nil => exact .inl (List.mem_singleton.1 h)
  | cons first rest ih =>
      obtain ⟨k, v⟩ := first
      unfold put at h
      by_cases hk : k = key
      · rw [if_pos hk, List.mem_cons, hk] at h
        rcases h with h | h
        · exact .inl h
        · exact .inr (List.mem_cons_of_mem _ h)
      · rw [if_neg hk, List.mem_cons] at h
        rcases h with h | h
        · exact .inr (h ▸ List.mem_cons_self)
        · rcases ih h with h | h
          · exact .inl h
          · exact .inr (List.mem_cons_of_mem _ h)

theorem mem_putNew {β : Type} {key : Name} {value : β} {entries : List (Name × β)}
    {entry : Name × β} (h : entry ∈ putNew key value entries) :
    entry = (key, value) ∨ entry ∈ entries := by
  unfold putNew at h
  split at h
  · exact .inr h
  · rcases List.mem_append.1 h with h | h
    · exact .inr h
    · exact .inl (List.mem_singleton.1 h)

theorem keys_put {β : Type} (key : Name) (value : β) (entries : List (Name × β)) :
    (put key value entries).map Prod.fst = insertNew (entries.map Prod.fst) key := by
  induction entries with
  | nil => simp [put, insertNew]
  | cons first rest ih =>
      obtain ⟨k, v⟩ := first
      unfold put
      by_cases hk : k = key
      · simp [hk, insertNew]
      · rw [if_neg hk, List.map_cons, ih]
        exact (insertNew_cons_of_ne hk).symm

/-- A key that is not bound yet is added at the end. -/
theorem put_of_lookup_eq_none {β : Type} {key : Name} (value : β) {entries : List (Name × β)}
    (h : entries.lookup key = none) : put key value entries = entries ++ [(key, value)] := by
  induction entries with
  | nil => rfl
  | cons first rest ih =>
      obtain ⟨k, v⟩ := first
      rw [lookup_cons_ite] at h
      split_ifs at h with hk
      rw [put, if_neg (Ne.symm hk), ih h, List.cons_append]

theorem keys_putNew {β : Type} (key : Name) (value : β) (entries : List (Name × β)) :
    (putNew key value entries).map Prod.fst = insertNew (entries.map Prod.fst) key := by
  unfold putNew insertNew
  by_cases hmem : key ∈ entries.map Prod.fst
  · rw [if_pos hmem, if_pos]
    obtain ⟨entry, hentry, rfl⟩ := List.mem_map.1 hmem
    rw [List.any_eq_true]
    exact ⟨entry, hentry, decide_eq_true rfl⟩
  · rw [if_neg hmem, if_neg, List.map_append]
    · rfl
    · rw [List.any_eq_true]
      rintro ⟨entry, hentry, hkey⟩
      exact hmem (of_decide_eq_true hkey ▸ List.mem_map_of_mem hentry)

theorem lookup_eq_some_of_mem {β : Type} {entries : List (Name × β)}
    (hnodup : (entries.map Prod.fst).Nodup) {name : Name} {value : β}
    (h : (name, value) ∈ entries) : entries.lookup name = some value := by
  obtain ⟨before, after, rfl⟩ := List.append_of_mem h
  refine List.lookup_eq_some_iff.2 ⟨before, after, rfl, fun entry hentry => ?_⟩
  rw [List.map_append, List.nodup_append] at hnodup
  have hne := hnodup.2.2 entry.1 (List.mem_map_of_mem hentry) name (by simp)
  simpa using Ne.symm hne

theorem exists_lookup_of_exists_mem {β : Type} {entries : List (Name × β)} {name : Name}
    (h : ∃ entry ∈ entries, entry.1 = name) : ∃ value, entries.lookup name = some value := by
  obtain ⟨entry, hentry, rfl⟩ := h
  exact Option.isSome_iff_exists.1
    (List.lookup_isSome_iff.2 ⟨entry, hentry, beq_self_eq_true entry.1⟩)

theorem mem_of_lookup_eq_some {β : Type} {entries : List (Name × β)} {name : Name} {value : β}
    (h : entries.lookup name = some value) : (name, value) ∈ entries := by
  obtain ⟨before, after, rfl, -⟩ := List.lookup_eq_some_iff.1 h
  exact List.mem_append_right _ List.mem_cons_self

theorem lookup_map_snd {β γ : Type} (f : β → γ) (entries : List (Name × β)) (name : Name) :
    (entries.map fun (key, value) => (key, f value)).lookup name =
      (entries.lookup name).map f := by
  induction entries with
  | nil => rfl
  | cons entry rest ih =>
      obtain ⟨key, value⟩ := entry
      rw [List.map_cons, List.lookup_cons, List.lookup_cons, ih]
      cases name == key <;> rfl

namespace Library

/-- A property of the entries of the documents that adding an entry keeps holds of the
library. -/
theorem foldl_invariant {P : List (Name × Entry) → Prop} {add : Name → Entry →
      List (Name × Entry) → List (Name × Entry)} {added : List Entry}
    {entries : List (Name × Entry)} (h : P entries)
    (hstep : ∀ entry ∈ added, ∀ entries, P entries → P (add entry.fragment.name entry entries)) :
    P (added.foldl (fun entries entry => add entry.fragment.name entry entries) entries) := by
  induction added generalizing entries with
  | nil => exact h
  | cons entry rest ih =>
      exact ih (hstep entry List.mem_cons_self entries h)
        fun e he => hstep e (List.mem_cons_of_mem _ he)

/-- The names of a library are in the order in which they first appear. -/
theorem keys_foldl {add : Name → Entry → List (Name × Entry) → List (Name × Entry)}
    (hadd : ∀ name entry entries,
      (add name entry entries).map Prod.fst = insertNew (entries.map Prod.fst) name)
    (added : List Entry) (entries : List (Name × Entry)) :
    (added.foldl (fun entries entry => add entry.fragment.name entry entries) entries).map
        Prod.fst =
      (added.map (·.fragment.name)).foldl insertNew (entries.map Prod.fst) := by
  induction added generalizing entries with
  | nil => rfl
  | cons entry rest ih => rw [List.foldl_cons, ih, hadd, List.map_cons, List.foldl_cons]

theorem nodup_names (documents accompanying : List Document) :
    ((ofDocuments documents accompanying).entries.map Prod.fst).Nodup := by
  simp only [ofDocuments, keys_foldl keys_putNew, keys_foldl keys_put]
  exact nodup_foldl_insertNew _ (nodup_foldl_insertNew _ .nil)

/-- Every entry of the library is a fragment of one of the documents, under its own name. -/
theorem mem_entries {documents accompanying : List Document} {name : Name} {entry : Entry}
    (h : (name, entry) ∈ (ofDocuments documents accompanying).entries) :
    name = entry.fragment.name ∧
      ∃ document ∈ documents ++ accompanying, entry.fragment ∈ document.fragments := by
  have hentry : ∀ own, ∀ docs ⊆ documents ++ accompanying, ∀ e ∈ docs.flatMap (entriesOf own),
      ∃ document ∈ documents ++ accompanying, e.fragment ∈ document.fragments := by
    intro own docs hdocs e he
    obtain ⟨document, hdocument, he⟩ := List.mem_flatMap.1 he
    obtain ⟨fragment, hfragment, rfl⟩ := List.mem_map.1 he
    exact ⟨document, hdocs hdocument, hfragment⟩
  let P : List (Name × Entry) → Prop := fun entries => ∀ p ∈ entries,
    p.1 = p.2.fragment.name ∧
      ∃ document ∈ documents ++ accompanying, p.2.fragment ∈ document.fragments
  have husers : P ((documents.flatMap (entriesOf true)).foldl
      (fun entries entry => put entry.fragment.name entry entries) []) := by
    refine foldl_invariant (P := P) (fun p hp => absurd hp List.not_mem_nil) ?_
    intro e he entries hentries p hp
    rcases mem_put hp with rfl | hp
    · exact ⟨rfl, hentry true documents (List.subset_append_left _ _) e he⟩
    · exact hentries p hp
  have hall : P (ofDocuments documents accompanying).entries := by
    refine foldl_invariant (P := P) husers ?_
    intro e he entries hentries p hp
    rcases mem_putNew hp with rfl | hp
    · exact ⟨rfl, hentry false accompanying (List.subset_append_right _ _) e he⟩
    · exact hentries p hp
  exact hall (name, entry) h

end Library

/-! ## Linking -/

namespace Linked

/-- What linking documents gives: every fragment of the library and every operation of the user's
documents with its selections resolved. -/
structure LinkedFrom (schema : Schema) (documents accompanying : List Document)
    (linked : Linked) : Prop where
  schema_eq : linked.schema = schema
  library_eq : linked.library = Library.ofDocuments documents accompanying
  fragments : List.Forall₂
    (fun (entry : Name × Library.Entry) (fragment : Name × LinkedFragment) =>
      fragment.1 = entry.1 ∧ fragment.2.entry = entry.2 ∧
      linked.library.resolve schema linked.options.rounds entry.2.fragment.onType
        entry.2.fragment.selections = .ok fragment.2.selections)
    linked.library.entries linked.fragments
  operations : List.Forall₂
    (fun (written : String × Operation) (operation : LinkedOperation) =>
      operation.operation = written.2 ∧ operation.filePath = written.1 ∧
      linked.library.resolve schema linked.options.rounds operation.onType
        written.2.selections = .ok operation.selections)
    (documents.flatMap fun document =>
      document.inOrder.map fun operation => (document.filePath, operation)) linked.operations

variable {options : Options} {schema : Schema} {documents accompanying : List Document}
  {linked : Linked} {config : Config} {model : Model}

/-- Documents are linked if every fragment and every operation can be resolved. -/
theorem ofDocuments_eq_ok :
    ofDocuments options schema documents accompanying = .ok linked ↔
      linked.options = options ∧ linked.schema = schema ∧
      linked.library = Library.ofDocuments documents accompanying ∧
      List.Forall₂ (fun entry fragment =>
          Linked.fragment schema linked.library options.rounds entry = .ok fragment)
        linked.library.entries linked.fragments ∧
      List.Forall₂ (fun (written : String × Operation) operation =>
          Linked.operation schema linked.library options.rounds written.1 written.2 = .ok operation)
        (documents.flatMap fun document =>
          document.inOrder.map fun operation => (document.filePath, operation))
        linked.operations := by
  simp only [ofDocuments, except_bind_eq_ok, except_mapM_eq_ok]
  constructor
  · rintro ⟨fragments, hfragments, operations, hoperations, h⟩
    obtain rfl := Except.ok.inj h
    exact ⟨rfl, rfl, rfl, hfragments, hoperations⟩
  · rintro ⟨rfl, rfl, hlibrary, hfragments, hoperations⟩
    rw [hlibrary] at hfragments hoperations
    exact ⟨_, hfragments, _, hoperations, by rw [← hlibrary]⟩

theorem options_of_ofDocuments
    (h : ofDocuments options schema documents accompanying = .ok linked) :
    linked.options = options := (ofDocuments_eq_ok.1 h).1

theorem linkedFrom (h : ofDocuments options schema documents accompanying = .ok linked) :
    LinkedFrom schema documents accompanying linked := by
  obtain ⟨rfl, hschema, hlibrary, hfragments, hoperations⟩ := ofDocuments_eq_ok.1 h
  refine ⟨hschema, hlibrary, ?_, ?_⟩
  · refine hfragments.imp fun entry fragment hfragment => ?_
    obtain ⟨selections, hselections, hfragment⟩ := except_bind_eq_ok.1 hfragment
    obtain rfl := Except.ok.inj hfragment
    exact ⟨rfl, rfl, hselections⟩
  · refine hoperations.imp fun written operation hoperation => ?_
    obtain ⟨selections, hselections, hoperation⟩ := except_bind_eq_ok.1 hoperation
    obtain rfl := Except.ok.inj hoperation
    exact ⟨rfl, rfl, hselections⟩

theorem LinkedFrom.names (h : LinkedFrom schema documents accompanying linked) :
    linked.fragments.map Prod.fst = linked.library.entries.map Prod.fst := by
  have hnames : List.Forall₂ (· = ·) (linked.fragments.map Prod.fst)
      (linked.library.entries.map Prod.fst) := by
    rw [List.forall₂_map_left_iff, List.forall₂_map_right_iff]
    exact (h.fragments.imp fun entry fragment hfragment => hfragment.1).flip
  rwa [List.forall₂_eq_eq_eq] at hnames

theorem LinkedFrom.nodup_names (h : LinkedFrom schema documents accompanying linked) :
    (linked.fragments.map Prod.fst).Nodup := by
  rw [h.names, h.library_eq]
  exact Library.nodup_names documents accompanying

theorem LinkedFrom.exists_entry (h : LinkedFrom schema documents accompanying linked)
    {fragment : Name × LinkedFragment} (hfragment : fragment ∈ linked.fragments) :
    (fragment.1, fragment.2.entry) ∈ linked.library.entries ∧
      linked.library.resolve schema linked.options.rounds fragment.2.entry.fragment.onType
        fragment.2.entry.fragment.selections = .ok fragment.2.selections := by
  obtain ⟨⟨name, entry⟩, hentry, rfl, rfl, hresolve⟩ :=
    exists_of_forall₂_of_mem h.fragments hfragment
  exact ⟨hentry, hresolve⟩

/-- A linked fragment stands under the name of its definition. -/
theorem LinkedFrom.name_eq (h : LinkedFrom schema documents accompanying linked) {name : Name}
    {fragment : LinkedFragment} (hlookup : linked.fragments.lookup name = some fragment) :
    fragment.entry.fragment.name = name := by
  have hmem := (h.exists_entry (mem_of_lookup_eq_some hlookup)).1
  rw [h.library_eq] at hmem
  exact (Library.mem_entries hmem).1.symm

end Linked

/-! ## The top of a tree -/

/-- The tops of the trees of a model, those of the operations first. -/
def Model.dataFields (model : Model) : List Field :=
  model.operations.map OperationModel.dataField ++ model.fragments.map FragmentModel.dataField

namespace Builder

/-- The request at the top of a tree. -/
def rootRequest (type : Name) (selections : List Resolved) (root : Path) : Request where
  fieldType := type
  responseName := "data"
  branches := [(selections, .always)]
  path := root
  inherited := []

/-- A field at the top of a tree: it holds all selections on a type, unconditionally. -/
structure DataFieldFrom (builder : Builder) (type : Name) (selections : List Resolved)
    (root : Path) (data : Field) : Prop where
  fills : builder.Fills (rootRequest type selections root) data
  type : data.type = .named (.object type)
  arguments : data.arguments = []
  condition : data.condition = .always
  isOverride : data.isOverride = false

theorem dataFieldFrom_of_result {builder : Builder} {type : Name} {selections : List Resolved}
    {root : Path} {data : Field}
    (h : (builder.dataField type selections root).result = .ok data) :
    builder.DataFieldFrom type selections root data := by
  unfold dataField at h
  split at h
  · nomatch h
  · obtain ⟨shapes, hshapes, h⟩ := Traced.result_bind_eq_ok.1 h
    obtain rfl := Except.ok.inj h
    refine ⟨⟨⟨_, fun branch hbranch => ?_, hshapes⟩, rfl, rfl⟩, rfl, rfl, rfl, rfl⟩
    rw [rootRequest, List.mem_singleton] at hbranch
    subst hbranch
    exact Nat.le_refl _

end Builder

/-! ## Fragments and operations -/

namespace Linked

variable {options : Options} {schema : Schema} {documents accompanying : List Document}
  {linked : Linked} {config : Config} {model : Model} {built : List (Name × FragmentModel)}

/-- The builder that knows the given models of fragments. -/
def builderAfter (schema : Schema) (built : List (Name × FragmentModel)) : Builder :=
  ⟨schema, built.map fun (name, model) => (name, model.dataField.shapes)⟩

theorem lookup_fragmentShapes {name : Name} {shapes : List Shape} :
    (builderAfter schema built).fragmentShapes.lookup name = some shapes ↔
      ∃ model, built.lookup name = some model ∧ model.dataField.shapes = shapes := by
  have hmap := lookup_map_snd (fun model : FragmentModel => model.dataField.shapes) built name
  rw [builderAfter, hmap, Option.map_eq_some_iff]

theorem fragmentModel_result {fragment : LinkedFragment} {model : FragmentModel}
    (h : (fragmentModel schema built fragment).result = .ok model) :
    model.name = fragment.entry.fragment.name ∧
      (builderAfter schema built).DataFieldFrom fragment.entry.fragment.onType
        fragment.selections (.atRoot fragment.entry.fragment.name .fragment) model.dataField := by
  obtain ⟨inferred, -, h⟩ := Traced.result_bind_eq_ok.1 h
  obtain ⟨vars, -, h⟩ := Traced.result_bind_eq_ok.1 h
  obtain ⟨data, hdata, h⟩ := Traced.result_bind_eq_ok.1 h
  obtain ⟨-, -, h⟩ := Traced.result_bind_eq_ok.1 h
  obtain rfl := Except.ok.inj h
  exact ⟨rfl, Builder.dataFieldFrom_of_result hdata⟩

/-- The variables of a fragment are the inferred ones, with their types resolved. -/
theorem vars_of_fragmentModel {fragment : LinkedFragment} {model : FragmentModel}
    (h : (fragmentModel schema built fragment).result = .ok model) :
    ∃ inferred, Inference.infer schema fragment.entry.fragment.name fragment.selections =
        .ok inferred ∧
      List.Forall₂ (fun entry var => (inferredVariable schema entry).result = .ok var) inferred
        model.vars := by
  obtain ⟨inferred, hinferred, h⟩ := Traced.result_bind_eq_ok.1 h
  obtain ⟨vars, hvars, h⟩ := Traced.result_bind_eq_ok.1 h
  obtain ⟨data, -, h⟩ := Traced.result_bind_eq_ok.1 h
  obtain ⟨-, -, h⟩ := Traced.result_bind_eq_ok.1 h
  obtain rfl := Except.ok.inj h
  exact ⟨inferred, Traced.result_ofDocument.1 hinferred, Traced.result_each.1 hvars⟩

/-- Fragments are built in the given order, each after the ones before it. -/
theorem fragmentModels_result {names : List Name} {all : List (Name × FragmentModel)}
    (h : (fragmentModels linked built names).result = .ok all) :
    ∃ added, all = built ++ added ∧ added.map Prod.fst = names ∧
      ∀ before name model after, added = before ++ (name, model) :: after →
        ∃ fragment, linked.fragments.lookup name = some fragment ∧
          (fragmentModel linked.schema (built ++ before) fragment).result = .ok model := by
  induction names generalizing built with
  | nil =>
      obtain rfl := Except.ok.inj h
      refine ⟨[], (List.append_nil _).symm, rfl, fun before name model after hsplit => ?_⟩
      simp at hsplit
  | cons name rest ih =>
      rw [fragmentModels] at h
      cases hlookup : linked.fragments.lookup name with
      | none =>
          rw [hlookup] at h
          cases h
      | some fragment =>
          rw [hlookup] at h
          obtain ⟨model, hmodel, h⟩ := Traced.result_bind_eq_ok.1 h
          obtain ⟨added, rfl, hnames, hadded⟩ := ih h
          refine ⟨(name, model) :: added, by simp, by rw [List.map_cons, hnames], ?_⟩
          intro before name' model' after hsplit
          cases before with
          | nil =>
              obtain ⟨heq, -⟩ := List.cons.inj hsplit
              obtain ⟨rfl, rfl⟩ := Prod.mk.inj heq
              exact ⟨fragment, hlookup, by rwa [List.append_nil]⟩
          | cons head before =>
              obtain ⟨rfl, htail⟩ := List.cons.inj hsplit
              simpa using hadded before name' model' after htail

theorem operationModel_result {operation : LinkedOperation} {model : OperationModel}
    (h : (operationModel linked built operation).result = .ok model) :
    operation.operation.name = some model.name ∧
      (builderAfter linked.schema built).DataFieldFrom operation.onType operation.selections
        (.atRoot model.name .operationImplementation) model.dataField := by
  unfold operationModel at h
  split at h
  · nomatch h
  · next name hname =>
      split at h
      · nomatch h
      · obtain ⟨vars, -, h⟩ := Traced.result_bind_eq_ok.1 h
        obtain ⟨data, hdata, h⟩ := Traced.result_bind_eq_ok.1 h
        obtain ⟨reached, -, h⟩ := Traced.result_bind_eq_ok.1 h
        obtain ⟨-, -, h⟩ := Traced.result_bind_eq_ok.1 h
        obtain rfl := Except.ok.inj h
        exact ⟨hname, Builder.dataFieldFrom_of_result hdata⟩

/-- The variables of an operation are the declared ones, with their types resolved. -/
theorem vars_of_operationModel {operation : LinkedOperation} {model : OperationModel}
    (h : (operationModel linked built operation).result = .ok model) :
    List.Forall₂ (fun definition var =>
        (declaredVariable linked.schema definition).result = .ok var)
      operation.operation.vars model.vars := by
  unfold operationModel at h
  split at h
  · nomatch h
  · split at h
    · nomatch h
    · obtain ⟨vars, hvars, h⟩ := Traced.result_bind_eq_ok.1 h
      obtain ⟨data, -, h⟩ := Traced.result_bind_eq_ok.1 h
      obtain ⟨reached, -, h⟩ := Traced.result_bind_eq_ok.1 h
      obtain ⟨-, -, h⟩ := Traced.result_bind_eq_ok.1 h
      obtain rfl := Except.ok.inj h
      exact Traced.result_each.1 hvars

/-- What a successful build consists of: an order of the fragments, their models in that order, and
the models of the operations. -/
structure BuildFrom (linked : Linked) (order : List Name) (built : List (Name × FragmentModel))
    (model : Model) : Prop where
  order_eq : BuildOrder.ofBodies (linked.fragments.map fun (name, f) => (name, f.selections)) =
    .ok order
  built_eq : (fragmentModels linked [] order).result = .ok built
  operations : List.Forall₂ (fun operation model =>
    (operationModel linked built operation).result = .ok model) linked.operations model.operations
  fragments : model.fragments = linked.fragments.filterMap fun (name, _) => built.lookup name

theorem models_eq_ok {operations : List OperationModel} :
    linked.models.result = .ok (built, operations) ↔
      ∃ order, BuildOrder.ofBodies (linked.fragments.map fun (name, f) => (name, f.selections)) =
          .ok order ∧
        (fragmentModels linked [] order).result = .ok built ∧
        List.Forall₂ (fun operation model =>
          (operationModel linked built operation).result = .ok model)
          linked.operations operations := by
  simp only [models, Traced.result_bind_eq_ok, Traced.result_ofDocument, Traced.result_each,
    Traced.result_ok, Except.ok.injEq, Prod.mk.injEq]
  constructor
  · rintro ⟨order, horder, _, hbuilt, _, hoperations, rfl, rfl⟩
    exact ⟨order, horder, hbuilt, hoperations⟩
  · rintro ⟨order, horder, hbuilt, hoperations⟩
    exact ⟨order, horder, built, hbuilt, operations, hoperations, rfl, rfl⟩

/-- A build succeeds with a model exactly if the model consists of such parts, with the declarations
for the types of the fragments and operations. -/
theorem build_eq_ok : (linked.build config).result = .ok model ↔
    ∃ order built, linked.BuildFrom order built model ∧
      Declarations.ofMarks linked.schema config
        ((typesOf built model.operations).map ModelType.leaf) = .ok model.declarations ∧
      model.ownFragments =
        (linked.fragments.filter fun (_, fragment) => fragment.entry.own).map Prod.fst := by
  constructor
  · intro h
    obtain ⟨⟨built, operations⟩, hmodels, h⟩ := Traced.result_bind_eq_ok.1 h
    obtain ⟨declarations, hdeclarations, h⟩ := Traced.result_bind_eq_ok.1 h
    obtain ⟨-, -, h⟩ := Traced.result_bind_eq_ok.1 h
    obtain rfl := Except.ok.inj h
    obtain ⟨order, horder, hbuilt, hoperations⟩ := models_eq_ok.1 hmodels
    rw [marks_models hmodels] at hdeclarations
    exact ⟨order, built, ⟨horder, hbuilt, hoperations, rfl⟩, hdeclarations, rfl⟩
  · rintro ⟨order, built, ⟨horder, hbuilt, hoperations, hfragments⟩, hdeclarations, hown⟩
    have hmodels := models_eq_ok.2 ⟨order, horder, hbuilt, hoperations⟩
    rw [← marks_models hmodels] at hdeclarations
    refine Traced.result_bind_eq_ok.2 ⟨_, hmodels, Traced.result_bind_eq_ok.2
      ⟨model.declarations, hdeclarations, Traced.result_bind_eq_ok.2 ⟨(), rfl, ?_⟩⟩⟩
    rw [← hfragments, ← hown]
    rfl

/-- A successful build has listed the declarations for the types of the fragments and operations. -/
theorem buildFrom_and_ofMarks (h : (linked.build config).result = .ok model) :
    ∃ order built, linked.BuildFrom order built model ∧
      Declarations.ofMarks linked.schema config
        ((typesOf built model.operations).map ModelType.leaf) = .ok model.declarations := by
  obtain ⟨order, built, hparts, hdeclarations, -⟩ := build_eq_ok.1 h
  exact ⟨order, built, hparts, hdeclarations⟩

theorem buildFrom_of_result (h : (linked.build config).result = .ok model) :
    ∃ order built, linked.BuildFrom order built model := by
  obtain ⟨order, built, hparts, -⟩ := buildFrom_and_ofMarks h
  exact ⟨order, built, hparts⟩

variable {order : List Name}

/-- Every model of a fragment was built after those before it in the order. -/
theorem BuildFrom.fragmentModel_split (h : linked.BuildFrom order built model)
    {before after : List (Name × FragmentModel)} {name : Name} {fragmentModel : FragmentModel}
    (hsplit : built = before ++ (name, fragmentModel) :: after) :
    ∃ fragment, linked.fragments.lookup name = some fragment ∧
      (Linked.fragmentModel linked.schema before fragment).result = .ok fragmentModel := by
  obtain ⟨added, hadded, -, hmodels⟩ := fragmentModels_result h.built_eq
  obtain rfl : built = added := hadded
  exact hmodels before name fragmentModel after hsplit

theorem BuildFrom.fragment_split (h : linked.BuildFrom order built model)
    {before after : List (Name × FragmentModel)} {name : Name} {fragmentModel : FragmentModel}
    (hsplit : built = before ++ (name, fragmentModel) :: after) :
    ∃ fragment, linked.fragments.lookup name = some fragment ∧
      fragmentModel.name = fragment.entry.fragment.name ∧
      (builderAfter linked.schema before).DataFieldFrom fragment.entry.fragment.onType
        fragment.selections (.atRoot fragment.entry.fragment.name .fragment)
        fragmentModel.dataField := by
  obtain ⟨fragment, hlookup, hresult⟩ := h.fragmentModel_split hsplit
  exact ⟨fragment, hlookup, fragmentModel_result hresult⟩

theorem BuildFrom.exists_built (h : linked.BuildFrom order built model)
    {fragmentModel : FragmentModel} (hmem : fragmentModel ∈ model.fragments) :
    ∃ name before after, built = before ++ (name, fragmentModel) :: after := by
  rw [h.fragments, List.mem_filterMap] at hmem
  obtain ⟨⟨name, _⟩, _, hlookup⟩ := hmem
  obtain ⟨before, after, hsplit⟩ := List.append_of_mem (mem_of_lookup_eq_some hlookup)
  exact ⟨name, before, after, hsplit⟩

theorem BuildFrom.nodup_built (h : linked.BuildFrom order built model) :
    (built.map Prod.fst).Nodup := by
  obtain ⟨added, rfl, hnames, -⟩ := fragmentModels_result h.built_eq
  rw [hnames]
  exact BuildOrder.nodup_of_ofBodies h.order_eq

/-- The model of a fragment has the name that the fragment stands under. -/
theorem BuildFrom.name_eq (hfrom : LinkedFrom schema documents accompanying linked)
    (h : linked.BuildFrom order built model) {entry : Name × FragmentModel}
    (hentry : entry ∈ built) : entry.2.name = entry.1 := by
  obtain ⟨before, after, hsplit⟩ := List.append_of_mem hentry
  obtain ⟨fragment, hlookup, hname, -⟩ := h.fragment_split hsplit
  rw [hname, hfrom.name_eq hlookup]

/-- Every fragment of the model was built from its linked definition, after those before it in the
order. -/
theorem BuildFrom.exists_definition (hfrom : LinkedFrom schema documents accompanying linked)
    (h : linked.BuildFrom order built model) {fragmentModel : FragmentModel}
    (hmem : fragmentModel ∈ model.fragments) :
    ∃ before after fragment, built = before ++ (fragmentModel.name, fragmentModel) :: after ∧
      linked.fragments.lookup fragmentModel.name = some fragment ∧
      (Linked.fragmentModel linked.schema before fragment).result = .ok fragmentModel := by
  obtain ⟨name, before, after, hsplit⟩ := h.exists_built hmem
  obtain ⟨fragment, hlookup, hresult⟩ := h.fragmentModel_split hsplit
  have hentry : (name, fragmentModel) ∈ built := by simp [hsplit]
  obtain rfl : fragmentModel.name = name := h.name_eq hfrom hentry
  exact ⟨before, after, fragment, hsplit, hlookup, hresult⟩

/-- Every fragment that was built is part of the model. -/
theorem BuildFrom.mem_fragments (h : linked.BuildFrom order built model)
    {entry : Name × FragmentModel} (hentry : entry ∈ built) : entry.2 ∈ model.fragments := by
  obtain ⟨before, after, hsplit⟩ := List.append_of_mem hentry
  obtain ⟨fragment, hlookup, -⟩ := h.fragment_split hsplit
  rw [h.fragments, List.mem_filterMap]
  exact ⟨(entry.1, fragment), mem_of_lookup_eq_some hlookup,
    lookup_eq_some_of_mem h.nodup_built hentry⟩

theorem BuildFrom.nodup_fragment_names (hfrom : LinkedFrom schema documents accompanying linked)
    (h : linked.BuildFrom order built model) :
    (model.fragments.map FragmentModel.name).Nodup := by
  have hname : ∀ name other, other ∈ (built.lookup name).map FragmentModel.name → other = name := by
    intro name other hother
    obtain ⟨fragmentModel, hlookup, rfl⟩ := Option.map_eq_some_iff.1 hother
    exact h.name_eq hfrom (mem_of_lookup_eq_some hlookup)
  have hmap : model.fragments.map FragmentModel.name = (linked.fragments.map Prod.fst).filterMap
      fun name => (built.lookup name).map FragmentModel.name := by
    rw [h.fragments, List.map_filterMap, List.filterMap_map]
    rfl
  rw [hmap]
  refine List.Nodup.filterMap (fun name name' other hother hother' => ?_) hfrom.nodup_names
  rw [← hname name other hother, hname name' other hother']

/-- The models of the operations, by the operations as the documents have them. -/
theorem BuildFrom.forall₂_written (hfrom : LinkedFrom schema documents accompanying linked)
    (h : linked.BuildFrom order built model) :
    List.Forall₂ (fun (written : Operation) (operationModel : OperationModel) =>
        ∃ operation ∈ linked.operations, operation.operation = written ∧
          (Linked.operationModel linked built operation).result = .ok operationModel)
      (documents.flatMap Document.inOrder) model.operations := by
  have hwritten : documents.flatMap Document.inOrder = (documents.flatMap fun document =>
      document.inOrder.map fun operation => (document.filePath, operation)).map Prod.snd := by
    simp [List.map_flatMap, Function.comp_def]
  have hmodels := (List.forall₂_and_left _ _).2
    ⟨fun operation (hmem : operation ∈ linked.operations) => hmem, h.operations⟩
  rw [hwritten, List.forall₂_map_left_iff]
  refine forall₂_comp hfrom.operations hmodels ?_
  rintro written operation operationModel ⟨hoperation, -, -⟩ ⟨hmem, hmodel⟩
  exact ⟨operation, hmem, hoperation, hmodel⟩

/-- `data` is the top of the tree that the model has for an operation or a fragment with the given
selections. -/
inductive IsTop (linked : Linked) (model : Model) : List Resolved → Field → Prop
  | operation {operation : LinkedOperation} {operationModel : OperationModel} :
      (operation, operationModel) ∈ linked.operations.zip model.operations →
      IsTop linked model operation.selections operationModel.dataField
  | fragment {fragment : LinkedFragment} {fragmentModel : FragmentModel} :
      fragmentModel ∈ model.fragments →
      linked.fragments.lookup fragmentModel.name = some fragment →
      IsTop linked model fragment.selections fragmentModel.dataField

/-- The top of a tree is built from its selections. -/
theorem IsTop.dataFieldFrom {selections : List Resolved} {data : Field}
    (hlink : ofDocuments options schema documents accompanying = .ok linked)
    (hbuild : (linked.build config).result = .ok model) (h : linked.IsTop model selections data) :
    ∃ builder : Builder, builder.schema = schema ∧
      ∃ type root, builder.DataFieldFrom type selections root data := by
  have hfrom := linkedFrom hlink
  obtain ⟨order, built, hparts⟩ := buildFrom_of_result hbuild
  cases h with
  | operation hzip =>
      have hresult := (List.forall₂_iff_zip.1 hparts.operations).2 hzip
      exact ⟨_, hfrom.schema_eq, _, _, (operationModel_result hresult).2⟩
  | fragment hmem hlookup =>
      obtain ⟨name, before, after, hsplit⟩ := hparts.exists_built hmem
      obtain ⟨fragment, hlookup', hname, hdata⟩ := hparts.fragment_split hsplit
      rw [hname, hfrom.name_eq hlookup', hlookup'] at hlookup
      obtain rfl := Option.some.inj hlookup
      exact ⟨_, hfrom.schema_eq, _, _, hdata⟩

/-- Every operation and every fragment of the model has a tree with its selections. -/
theorem exists_isTop (hlink : ofDocuments options schema documents accompanying = .ok linked)
    (hbuild : (linked.build config).result = .ok model) {data : Field}
    (h : data ∈ model.dataFields) : ∃ selections, linked.IsTop model selections data := by
  have hfrom := linkedFrom hlink
  obtain ⟨order, built, hparts⟩ := buildFrom_of_result hbuild
  rw [Model.dataFields, List.mem_append] at h
  rcases h with h | h
  · obtain ⟨operationModel, hmem, rfl⟩ := List.mem_map.1 h
    obtain ⟨operation, hzip⟩ : ∃ operation,
        (operation, operationModel) ∈ linked.operations.zip model.operations := by
      obtain ⟨i, hi, rfl⟩ := List.mem_iff_getElem.1 hmem
      have hlen := hparts.operations.length_eq
      refine ⟨linked.operations[i], List.mem_iff_getElem.2 ⟨i, ?_, List.getElem_zip⟩⟩
      rw [List.length_zip]
      omega
    exact ⟨_, .operation hzip⟩
  · obtain ⟨fragmentModel, hmem, rfl⟩ := List.mem_map.1 h
    obtain ⟨name, before, after, hsplit⟩ := hparts.exists_built hmem
    obtain ⟨fragment, hlookup, hname, -⟩ := hparts.fragment_split hsplit
    refine ⟨fragment.selections, .fragment hmem ?_⟩
    rw [hname, hfrom.name_eq hlookup, hlookup]

/-- Documents, linked, with their model. -/
def built? (options : Options) (schema : Schema) (documents accompanying : List Document)
    (config : Config) : Option (Linked × Model) :=
  (ofDocuments options schema documents accompanying).toOption.bind fun linked =>
    (linked.build config).result.toOption.map fun model => (linked, model)

/-- A build that succeeds with a certain result can be found by running it. -/
theorem exists_of_built? {P : Linked → Model → Prop}
    [∀ linked model, Decidable (P linked model)]
    (h : (built? options schema documents accompanying config).any
      (fun built => decide (P built.1 built.2)) = true) :
    ∃ linked model, ofDocuments options schema documents accompanying = .ok linked ∧
      (linked.build config).result = .ok model ∧ P linked model := by
  obtain ⟨⟨linked, model⟩, hbuilt, hdecide⟩ := (Option.any_eq_true _ _).1 h
  obtain ⟨_, hlink, hmodel⟩ := Option.bind_eq_some_iff.1 hbuilt
  obtain ⟨_, hbuild, heq⟩ := Option.map_eq_some_iff.1 hmodel
  obtain ⟨rfl, rfl⟩ := Prod.mk.inj heq
  exact ⟨_, _, except_toOption_eq_some.1 hlink, except_toOption_eq_some.1 hbuild,
    of_decide_eq_true hdecide⟩

end Linked

/-! ## A sample

Pets, of which cats and dogs are noisy, and an operation whose selections overlap: the mate of a
cat is selected on every pet, unless the response is to be brief, and in a fragment on cats. -/

namespace Sample

/-- A definition of a field without arguments. -/
def definition (name type : Name) : FieldDefinition := ⟨name, .named type false, none, [], []⟩

/-- A declaration of a type. -/
def declaration (name : Name) (body : TypeBody) : TypeDefinition := ⟨name, none, [], body⟩

def schema : Schema where
  queryRoot := some "Query"
  mutationRoot := none
  subscriptionRoot := none
  types :=
    let pet := [definition "name" "String", definition "mate" "Pet"]
    let noise := [definition "volume" "Int"]
    [declaration "Query" (.object [] [definition "pet" "Pet"]),
      declaration "Pet" (.interface [] pet),
      declaration "Noisy" (.interface [] noise),
      declaration "Cat" (.object ["Pet", "Noisy"] (pet ++ noise)),
      declaration "Dog" (.object ["Pet", "Noisy"] (pet ++ noise)),
      declaration "Fish" (.object ["Pet"] pet)]
  directives := []

/-- A selected field without an alias and arguments. -/
def select (name : Name) (directives : List Directive) (selections : List Selection) :
    Selection :=
  .field ⟨none, name, [], directives⟩ selections

def document : Document where
  path := none
  operations :=
    [{ kind := .query
       name := some "Pets"
       vars := [⟨"brief", .named "Boolean" true, none, []⟩]
       directives := []
       selections :=
         [select "pet" []
           [select "name" [] [],
             select "mate" [⟨"skip", [("if", .var "brief")]⟩] [select "name" [] []],
             .inline (some "Noisy") [] [select "volume" [] []],
             .spread "CatMate" []]] }]
  fragments := [⟨"CatMate", "Cat", [], [select "mate" [] [select "name" [] []]]⟩]

theorem links : (Linked.ofDocuments .standard schema [document] []).toOption.isSome = true := by
  decide +kernel

/-- The sample documents, linked. -/
@[irreducible]
def linked : Linked := (Linked.ofDocuments .standard schema [document] []).toOption.get links

theorem ofDocuments_eq : Linked.ofDocuments .standard schema [document] [] = .ok linked := by
  rw [linked]
  exact except_eq_ok_get links

theorem builds : (linked.build ⟨[]⟩).result.toOption.isSome = true := by decide +kernel

/-- The model of the sample documents. -/
@[irreducible]
def model : Model := (linked.build ⟨[]⟩).result.toOption.get builds

theorem build_eq : (linked.build ⟨[]⟩).result = .ok model := by
  rw [model]
  exact except_eq_ok_get builds

theorem zip_operations_ne_nil : linked.operations.zip model.operations ≠ [] :=
  List.ne_nil_of_length_pos (by decide +kernel)

/-- The selections of the operation. -/
def selections : List Resolved :=
  ((linked.operations.zip model.operations).head zip_operations_ne_nil).1.selections

/-- The model of the operation. -/
def operation : OperationModel :=
  ((linked.operations.zip model.operations).head zip_operations_ne_nil).2

/-- The top of the tree of the operation. -/
def data : Field := operation.dataField

theorem isTop : linked.IsTop model selections data :=
  .operation (List.head_mem zip_operations_ne_nil)

theorem operation_mem : operation ∈ model.operations :=
  (List.of_mem_zip (List.head_mem zip_operations_ne_nil)).2

theorem data_mem : data ∈ model.dataFields :=
  List.mem_append_left _ (List.mem_map_of_mem operation_mem)

theorem shapes_ne_nil : data.shapes ≠ [] := List.ne_nil_of_length_pos (by decide +kernel)

theorem fields_ne_nil : (data.shapes.head shapes_ne_nil).fields ≠ [] :=
  List.ne_nil_of_length_pos (by decide +kernel)

/-- The pet that the operation selects. -/
def pet : Field := (data.shapes.head shapes_ne_nil).fields.head fields_ne_nil

theorem pet_mem : pet ∈ data.all :=
  Field.mem_all_of_mem_fields data.self_mem_all (List.head_mem shapes_ne_nil)
    (List.head_mem fields_ne_nil)

end Sample

end ResponseModel
