import ResponseModel.Proofs.DocumentOrder
import ResponseModel.Proofs.Repetitions

/-!
# Which definitions count

Several documents can define a fragment of the same name.  The library keeps one definition of a
name: the last one in the user's documents, or, if they have none, the first one in the accompanying
documents (`Library.Counts`).  Its names are in the order in which the documents first define them,
those of the user's documents before all others.  Fragments are then built in another order, each
after those that it spreads, and put back into the order of the library.  Main statement:
`counts_of_build`.
-/

namespace ResponseModel

/-! ## Distinct names -/

theorem prefix_foldl_insertNew {α : Type} [DecidableEq α] (xs acc : List α) :
    acc <+: xs.foldl insertNew acc := by
  induction xs generalizing acc with
  | nil => exact List.prefix_rfl
  | cons x rest ih =>
      have hstep : acc <+: insertNew acc x := by
        unfold insertNew
        split
        · exact List.prefix_rfl
        · exact List.prefix_append acc [x]
      exact hstep.trans (ih (insertNew acc x))

namespace Library

variable {documents accompanying : List Document} {name : Name} {entry : Entry}

/-! ## The definitions of a library -/

/-- The definition of a name that counts: the one in the last of the user's documents that define
the name, or, if there is none, the one in the first accompanying document that does. -/
inductive Counts (documents accompanying : List Document) (name : Name) : Entry → Prop
  | own {before after : List Document} {document : Document} {fragment : Fragment} :
      documents = before ++ document :: after →
      (∀ later ∈ after, name ∉ later.fragmentNames) →
      document.fragments.findRev? (·.name = name) = some fragment →
      Counts documents accompanying name ⟨fragment, document.filePath, true⟩
  | accompanying {before after : List Document} {document : Document} {fragment : Fragment} :
      (∀ own ∈ documents, name ∉ own.fragmentNames) →
      accompanying = before ++ document :: after →
      (∀ earlier ∈ before, name ∉ earlier.fragmentNames) →
      document.fragments.find? (·.name = name) = some fragment →
      Counts documents accompanying name ⟨fragment, document.filePath, false⟩

theorem not_mem_fragmentNames {own : Bool}
    (h : (documents.flatMap (entriesOf own)).findRev? (·.fragment.name = name) = none) :
    ∀ document ∈ documents, name ∉ document.fragmentNames := by
  rw [List.findRev?_eq_find?_reverse, List.find?_eq_none] at h
  intro document hdocument hname
  obtain ⟨fragment, hfragment, hsame⟩ := List.mem_map.1 hname
  have hentry : ⟨fragment, document.filePath, own⟩ ∈ documents.flatMap (entriesOf own) :=
    List.mem_flatMap.2 ⟨document, hdocument, List.mem_map_of_mem hfragment⟩
  exact h _ (List.mem_reverse.2 hentry) (decide_eq_true hsame)

/-- The first definition of a name is found in the first document that defines the name, in
whichever order the fragments of a document are searched. -/
theorem exists_document_of_find? {own : Bool} (order : List Fragment → List Fragment)
    (horder : ∀ fragments, fragments ⊆ order fragments)
    (h : (documents.flatMap fun document => (order document.fragments).map fun fragment =>
      (⟨fragment, document.filePath, own⟩ : Entry)).find? (·.fragment.name = name) = some entry) :
    ∃ before document after fragment, documents = before ++ document :: after ∧
      (∀ earlier ∈ before, name ∉ earlier.fragmentNames) ∧
      (order document.fragments).find? (·.name = name) = some fragment ∧
      entry = ⟨fragment, document.filePath, own⟩ := by
  rw [List.find?_flatMap, List.findSome?_eq_some_iff] at h
  obtain ⟨before, document, after, hsplit, hfound, hbefore⟩ := h
  rw [List.find?_map, Option.map_eq_some_iff] at hfound
  obtain ⟨fragment, hfragment, rfl⟩ := hfound
  refine ⟨before, document, after, fragment, hsplit, ?_, hfragment, rfl⟩
  intro earlier hearlier hname
  obtain ⟨other, hother, hsame⟩ := List.mem_map.1 hname
  have hnone := hbefore earlier hearlier
  rw [List.find?_map, Option.map_eq_none_iff, List.find?_eq_none] at hnone
  exact hnone other (horder _ hother) (decide_eq_true hsame)

theorem entry?_ofDocuments (documents accompanying : List Document) (name : Name) :
    entry? (ofDocuments documents accompanying) name =
      ((documents.flatMap (entriesOf true)).findRev? (·.fragment.name = name)).or
        ((accompanying.flatMap (entriesOf false)).find? (·.fragment.name = name)) := by
  unfold entry? ofDocuments
  rw [lookup_foldl_putNew, ← ofEntries, lookup_ofEntries]

/-- The library has the definition of a name that counts. -/
theorem counts_of_entry?
    (h : entry? (ofDocuments documents accompanying) name = some entry) :
    Counts documents accompanying name entry := by
  rw [entry?_ofDocuments, Option.or_eq_some_iff] at h
  rcases h with h | ⟨hnone, h⟩
  · rw [List.findRev?_eq_find?_reverse, List.reverse_flatMap] at h
    simp only [Function.comp_def, entriesOf, ← List.map_reverse] at h
    obtain ⟨before, document, after, fragment, hsplit, hbefore, hfragment, rfl⟩ :=
      exists_document_of_find? List.reverse (fun _ _ => List.mem_reverse.2) h
    rw [← List.findRev?_eq_find?_reverse] at hfragment
    have hdocuments : documents = after.reverse ++ document :: before.reverse := by
      rw [← documents.reverse_reverse, hsplit]
      simp
    exact .own hdocuments (by simpa using hbefore) hfragment
  · obtain ⟨before, document, after, fragment, hsplit, hbefore, hfragment, rfl⟩ :=
      exists_document_of_find? id (fun _ _ => id) h
    exact .accompanying (not_mem_fragmentNames hnone) hsplit hbefore hfragment

/-! ## The names of a library -/

theorem map_name_entriesOf (own : Bool) (documents : List Document) :
    (documents.flatMap (entriesOf own)).map (·.fragment.name) =
      documents.flatMap Document.fragmentNames := by
  simp only [List.map_flatMap, entriesOf, List.map_map]
  rfl

theorem names_ofEntries (own : Bool) (documents : List Document) :
    (ofEntries (documents.flatMap (entriesOf own))).map Prod.fst =
      distinct (documents.flatMap Document.fragmentNames) := by
  rw [ofEntries, keys_foldl keys_put, map_name_entriesOf]
  rfl

theorem names_ofDocuments (documents accompanying : List Document) :
    (ofDocuments documents accompanying).entries.map Prod.fst =
      distinct ((documents ++ accompanying).flatMap Document.fragmentNames) := by
  rw [List.flatMap_append, distinct_append, ← names_ofEntries true, ← map_name_entriesOf false]
  exact keys_foldl keys_putNew _ _

/-- The definitions from the user's documents are those of the names that they define. -/
theorem names_own_ofDocuments (documents accompanying : List Document) :
    ((ofDocuments documents accompanying).entries.filter (·.2.own)).map Prod.fst =
      distinct (documents.flatMap Document.fragmentNames) := by
  have hown : ∀ p ∈ ofEntries (documents.flatMap (entriesOf true)), p.2.own = true := by
    refine foldl_invariant (P := fun entries => ∀ p ∈ entries, p.2.own = true)
      (fun p hp => absurd hp List.not_mem_nil) ?_
    intro entry hentry entries hentries p hp
    rcases mem_put hp with rfl | hp
    · obtain ⟨document, -, hentry⟩ := List.mem_flatMap.1 hentry
      obtain ⟨fragment, -, rfl⟩ := List.mem_map.1 hentry
      rfl
    · exact hentries p hp
  have hkept : (ofDocuments documents accompanying).entries.filter (·.2.own) =
      (ofEntries (documents.flatMap (entriesOf true))).filter (·.2.own) := by
    refine foldl_invariant (P := fun entries => entries.filter (·.2.own) =
      (ofEntries (documents.flatMap (entriesOf true))).filter (·.2.own)) rfl ?_
    intro entry hentry entries hentries
    obtain ⟨document, -, hentry⟩ := List.mem_flatMap.1 hentry
    obtain ⟨fragment, -, rfl⟩ := List.mem_map.1 hentry
    unfold putNew
    split
    · exact hentries
    · rw [List.filter_append, hentries]
      simp
  rw [hkept, List.filter_eq_self.2 hown, names_ofEntries]

end Library

/-! ## The fragments of a model -/

namespace Linked

variable {schema : Schema} {documents accompanying : List Document} {linked : Linked}
  {config : Config} {model : Model} {order : List Name} {built : List (Name × FragmentModel)}

theorem LinkedFrom.map_entry (hfrom : LinkedFrom schema documents accompanying linked) :
    linked.fragments.map (fun fragment => (fragment.1, fragment.2.entry)) =
      linked.library.entries := by
  have hentries : List.Forall₂ (· = ·)
      (linked.fragments.map fun fragment => (fragment.1, fragment.2.entry))
      linked.library.entries := by
    rw [List.forall₂_map_left_iff]
    exact (hfrom.fragments.imp fun entry fragment hfragment =>
      Prod.ext hfragment.1 hfragment.2.1).flip
  rwa [List.forall₂_eq_eq_eq] at hentries

theorem LinkedFrom.ownFragments_eq (hfrom : LinkedFrom schema documents accompanying linked)
    (hbuild : (linked.build config).result = .ok model) :
    model.ownFragments = distinct (documents.flatMap Document.fragmentNames) := by
  obtain ⟨order, built, -, -, hown⟩ := build_eq_ok.1 hbuild
  rw [hown, ← Library.names_own_ofDocuments documents accompanying, ← hfrom.library_eq,
    ← hfrom.map_entry, List.filter_map, List.map_map]
  rfl

section Built

variable (hfrom : LinkedFrom schema documents accompanying linked)
  (hacyclic : linked.library.Acyclic) (hparts : linked.BuildFrom order built model)
include hfrom hacyclic hparts

/-- No fragment of the library is lost, and they keep their order. -/
theorem BuildFrom.map_name : model.fragments.map FragmentModel.name =
    distinct ((documents ++ accompanying).flatMap Document.fragmentNames) := by
  have hname : ∀ fragment ∈ linked.fragments,
      (built.lookup fragment.1).map FragmentModel.name = some fragment.1 := by
    intro fragment hfragment
    obtain ⟨fragmentModel, hlookup⟩ := exists_lookup_of_exists_mem
      ((hparts.ordered hfrom hacyclic).2 fragment.1 fragment.2
        (lookup_eq_some_of_mem hfrom.nodup_names hfragment))
    rw [hlookup, Option.map_some]
    exact congrArg some (hparts.name_eq hfrom (mem_of_lookup_eq_some hlookup))
  rw [← Library.names_ofDocuments, ← hfrom.library_eq, ← hfrom.names, hparts.fragments,
    List.map_filterMap, ← List.filterMap_eq_map]
  exact List.filterMap_congr hname

omit hacyclic in
theorem BuildFrom.lookup_built {fragment : FragmentModel} (hfragment : fragment ∈ model.fragments) :
    built.lookup fragment.name = some fragment := by
  obtain ⟨before, after, -, hsplit, -, -⟩ := hparts.exists_definition hfrom hfragment
  exact lookup_eq_some_of_mem hparts.nodup_built (by simp [hsplit])

/-- The model of a fragment is that of its linked definition, given the models of all fragments. -/
theorem BuildFrom.fragmentModel_eq {fragment : FragmentModel}
    (hfragment : fragment ∈ model.fragments) :
    ∃ written, linked.fragments.lookup fragment.name = some written ∧
      (fragmentModel linked.schema (model.fragments.map fun other => (other.name, other))
        written).result = .ok fragment := by
  obtain ⟨before, after, written, hsplit, hlookup, -⟩ :=
    hparts.exists_definition hfrom hfragment
  have hknown : ∀ entry ∈ model.fragments.map (fun other => (other.name, other)),
      built.lookup entry.1 = some entry.2 := by
    intro entry hentry
    obtain ⟨other, hother, rfl⟩ := List.mem_map.1 hentry
    exact hparts.lookup_built hfrom hother
  have hspreads : ∀ other directives type below,
      .spread other directives type below ∈ Resolved.nodesAll written.selections →
      other ∈ (model.fragments.map fun other => (other.name, other)).map Prod.fst := by
    intro other directives type below hnode
    obtain ⟨earlier, hearlier, rfl⟩ :=
      hparts.exists_before_fragment hfrom hacyclic hsplit hlookup hnode
    have hbuilt : earlier ∈ built := by simp [hsplit, hearlier]
    rw [← hparts.name_eq hfrom hbuilt, List.map_map]
    exact List.mem_map_of_mem (hparts.mem_fragments hbuilt)
  obtain ⟨found, hfound, hresult⟩ :=
    hparts.exists_fragmentModel hfrom hacyclic hknown hlookup hspreads
  rw [hparts.lookup_built hfrom hfragment] at hfound
  obtain rfl := Option.some.inj hfound
  exact ⟨written, hlookup, hresult⟩

end Built

end Linked

/-- **Which definitions count.**  Let no fragment spread itself.  However often the documents define
fragments of the same names, a model has one fragment of each name, in the order in which the names
first appear, those of the user's documents first.  The fragment of a name is built from the
definition in the last of the user's documents that define the name, or, if there is none, from the
definition in the first accompanying document that does.  The user's own fragments are those of the
names that the user's documents define, in the same order, so that they come first among all
fragments. -/
theorem counts_of_build {options : Options} {schema : Schema}
    {documents accompanying : List Document}
    {linked : Linked} {config : Config} {model : Model}
    (hlink : Linked.ofDocuments options schema documents accompanying = .ok linked)
    (hbuild : (linked.build config).result = .ok model) (hacyclic : linked.library.Acyclic) :
    model.fragments.map FragmentModel.name =
      distinct ((documents ++ accompanying).flatMap Document.fragmentNames) ∧
    (∀ fragment ∈ model.fragments, ∃ written : LinkedFragment,
      Library.Counts documents accompanying fragment.name written.entry ∧
      linked.library.resolve schema options.rounds written.entry.fragment.onType
        written.entry.fragment.selections = .ok written.selections ∧
      (Linked.fragmentModel schema (model.fragments.map fun other => (other.name, other))
        written).result = .ok fragment) ∧
    model.ownFragments = distinct (documents.flatMap Document.fragmentNames) ∧
    model.ownFragments <+: model.fragments.map FragmentModel.name := by
  have hfrom := Linked.linkedFrom hlink
  obtain ⟨order, built, hparts⟩ := Linked.buildFrom_of_result hbuild
  have hnames := hparts.map_name hfrom hacyclic
  have hown := hfrom.ownFragments_eq hbuild
  refine ⟨hnames, fun fragment hfragment => ?_, hown, ?_⟩
  · obtain ⟨written, hlookup, hresult⟩ := hparts.fragmentModel_eq hfrom hacyclic hfragment
    have hentry := hfrom.entry?_eq hlookup
    rw [hfrom.library_eq] at hentry
    rw [hfrom.schema_eq] at hresult
    rw [← Linked.options_of_ofDocuments hlink]
    exact ⟨written, Library.counts_of_entry? hentry,
      (hfrom.exists_entry (mem_of_lookup_eq_some hlookup)).2, hresult⟩
  · rw [hown, hnames, List.flatMap_append, distinct_append]
    exact prefix_foldl_insertNew _ _

/-! ## Cards

The second document replaces a fragment of the first one, in its place.  Of the accompanying
documents the first shadows the second and is shadowed by the user's own. -/

namespace Cards

open Sample (schema select)

def documents : List Document :=
  [⟨some "cards", [],
      [⟨"Card", "Pet", [], [select "name" [] []]⟩, ⟨"Name", "Pet", [], [select "name" [] []]⟩]⟩,
    ⟨some "pets", [],
      [⟨"Mate", "Pet", [], [select "mate" [] [.spread "Card" []]]⟩,
        ⟨"Card", "Pet", [], [.spread "Name" [], .spread "Sound" []]⟩]⟩]

def accompanying : List Document :=
  [⟨some "shared", [],
      [⟨"Name", "Pet", [], [select "mate" [] [select "name" [] []]]⟩,
        ⟨"Sound", "Noisy", [], [select "volume" [] []]⟩]⟩,
    ⟨some "old", [],
      [⟨"Toy", "Cat", [], [.spread "Name" []]⟩, ⟨"Sound", "Cat", [], [select "volume" [] []]⟩]⟩]

theorem builds : ∃ linked model,
    Linked.ofDocuments .standard schema documents accompanying = .ok linked ∧
    (linked.build ⟨[]⟩).result = .ok model ∧
    model.fragments.map (fun fragment => (fragment.name, fragment.filePath)) =
      [("Card", "pets"), ("Name", "cards"), ("Mate", "pets"), ("Sound", "shared"),
        ("Toy", "old")] :=
  Linked.exists_of_built? (by decide +kernel)

theorem acyclic : (Library.ofDocuments documents accompanying).Acyclic :=
  Library.acyclic_of_rank
    (fun name => if name = "Mate" then 2 else if name ∈ ["Card", "Toy"] then 1 else 0)
    (by decide +kernel)

end Cards

theorem counts_of_build_cards : ∃ linked model,
    Linked.ofDocuments .standard Sample.schema Cards.documents Cards.accompanying = .ok linked ∧
    (linked.build ⟨[]⟩).result = .ok model ∧ linked.library.Acyclic ∧
    model.fragments.map (fun fragment => (fragment.name, fragment.filePath)) =
      [("Card", "pets"), ("Name", "cards"), ("Mate", "pets"), ("Sound", "shared"),
        ("Toy", "old")] ∧
    (∀ fragment ∈ model.fragments, ∃ written : LinkedFragment,
      Library.Counts Cards.documents Cards.accompanying fragment.name written.entry ∧
      (Linked.fragmentModel Sample.schema (model.fragments.map fun other => (other.name, other))
        written).result = .ok fragment) ∧
    model.ownFragments = ["Card", "Name", "Mate"] := by
  obtain ⟨linked, model, hlink, hbuild, hfragments⟩ := Cards.builds
  have hacyclic : linked.library.Acyclic :=
    (Linked.linkedFrom hlink).library_eq ▸ Cards.acyclic
  obtain ⟨-, hcounts, hown, -⟩ := counts_of_build hlink hbuild hacyclic
  refine ⟨linked, model, hlink, hbuild, hacyclic, hfragments, fun fragment hfragment => ?_, ?_⟩
  · obtain ⟨written, hwritten, -, hresult⟩ := hcounts fragment hfragment
    exact ⟨written, hwritten, hresult⟩
  · rw [hown]
    decide

end ResponseModel
