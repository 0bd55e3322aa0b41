import Mathlib.Data.List.DropRight
import ResponseModel.Proofs.ReachedFragments

/-!
# The text of a request

A request carries the text of an operation and the texts of the fragments that it goes with
(`Operation.GoesWith`): those that it reaches and no others, each once, in the order in which a walk
through the selections first meets them.  So every spread in the text names a fragment in the text.
Main statement: `requestText_closed`; its first part says the same of any selections and any library
of fragments.
-/

namespace ResponseModel

/-! ## Texts of definitions -/

/-- `TrimsBreaks text piece`: the piece is the text without the line breaks at its end. -/
structure TrimsBreaks (text piece : String) : Prop where
  /-- Only line breaks are taken away. -/
  rest : ∃ count, text = piece ++ String.ofList (List.replicate count '\n')
  /-- All of them are. -/
  last : piece.toList.getLast? ≠ some '\n'

theorem trimsBreaks_trimBreaks (text : String) : TrimsBreaks text (trimBreaks text) := by
  have htrim : (trimBreaks text).toList = text.toList.rdropWhile (· = '\n') :=
    String.toList_ofList
  constructor
  · obtain ⟨count, hcount⟩ : ∃ count, text.toList.rtakeWhile (· = '\n') =
        List.replicate count '\n' := by
      refine ⟨_, List.eq_replicate_of_mem fun c hc => ?_⟩
      simpa using List.mem_rtakeWhile_imp hc
    refine ⟨count, String.toList_inj.1 ?_⟩
    rw [String.toList_append, htrim, String.toList_ofList, ← hcount,
      List.rdropWhile_append_rtakeWhile]
  · rw [htrim]
    intro hlast
    have hne : text.toList.rdropWhile (· = '\n') ≠ [] := by
      intro hnil
      rw [hnil] at hlast
      nomatch hlast
    have hbreak := List.rdropWhile_last_not (· = '\n') text.toList hne
    rw [List.getLast?_eq_some_getLast hne] at hlast
    exact hbreak (decide_eq_true (Option.some.inj hlast))

/-! ## Fragments that go with an operation -/

/-- The fragments of the library that an operation is sent with. -/
structure Operation.GoesWith (library : Library) (operation : Operation)
    (fragments : List Fragment) : Prop where
  /-- They are the definitions of their names. -/
  definitions : ∀ fragment ∈ fragments, ∃ entry, library.entry? fragment.name = some entry ∧
    entry.fragment = fragment
  /-- They are those that the operation reaches. -/
  reached : ∀ name, name ∈ fragments.map Fragment.name ↔
    library.Reaches operation.selections name
  /-- Each of them stands once. -/
  once : (fragments.map Fragment.name).Nodup
  /-- They stand in the order in which a walk first meets them. -/
  order : ∃ met, library.Meets [] operation.selections met ∧
    fragments.map Fragment.name = distinct met
  /-- Whatever is spread in the operation or in one of them is one of them. -/
  closed : ∀ name ∈ Selection.spreadsAll operation.selections ++
    fragments.flatMap (fun fragment => Selection.spreadsAll fragment.selections),
    name ∈ fragments.map Fragment.name

/-- The definitions of some names. -/
def Library.definitions (library : Library) (names : List Name) : List Fragment :=
  names.filterMap library.definition?

/-- The definitions of names that are defined have these names. -/
theorem Library.map_name_definitions {library : Library} {names : List Name}
    (hnames : ∀ name entry, library.entry? name = some entry → entry.fragment.name = name)
    (hdefined : ∀ name ∈ names, (library.entry? name).isSome = true) :
    (library.definitions names).map Fragment.name = names := by
  induction names with
  | nil => rfl
  | cons name rest ih =>
      obtain ⟨hname, hrest⟩ := List.forall_mem_cons.1 hdefined
      obtain ⟨entry, hentry⟩ := Option.isSome_iff_exists.1 hname
      rw [definitions, List.filterMap_cons, definition?, hentry, Option.map_some, List.map_cons,
        hnames name entry hentry]
      exact congrArg (name :: ·) (ih hrest)

/-- The definitions that a walk meets go with the operation. -/
theorem Operation.goesWith_of_meets {library : Library} {operation : Operation} {met : List Name}
    (hnames : ∀ name entry, library.entry? name = some entry → entry.fragment.name = name)
    (hmeets : library.Meets [] operation.selections met)
    (hdefined : ∀ name ∈ met, (library.entry? name).isSome = true) :
    operation.GoesWith library (library.definitions (distinct met)) := by
  have hmap : (library.definitions (distinct met)).map Fragment.name = distinct met :=
    Library.map_name_definitions hnames fun name hname => hdefined name (mem_distinct.1 hname)
  have hmem : ∀ fragment ∈ library.definitions (distinct met), ∃ entry,
      library.entry? fragment.name = some entry ∧ entry.fragment = fragment := by
    intro fragment hfragment
    obtain ⟨name, -, hname⟩ := List.mem_filterMap.1 hfragment
    obtain ⟨entry, hentry, rfl⟩ := Option.map_eq_some_iff.1 hname
    exact ⟨entry, (hnames name entry hentry).symm ▸ hentry, rfl⟩
  refine ⟨hmem, fun name => ?_, ?_, ⟨met, hmeets, hmap⟩, fun name hname => ?_⟩
  · rw [hmap, mem_distinct, hmeets.mem_iff]
  · rw [hmap]
    exact nodup_distinct met
  · rw [hmap, mem_distinct]
    rcases List.mem_append.1 hname with hname | hname
    · exact hmeets.spreadsAll_subset hname
    · obtain ⟨fragment, hfragment, hname⟩ := List.mem_flatMap.1 hname
      obtain ⟨entry, hentry, rfl⟩ := hmem fragment hfragment
      have hself : entry.fragment.name ∈ met := by
        rw [← mem_distinct, ← hmap]
        exact List.mem_map_of_mem hfragment
      exact hmeets.closed _ hself List.not_mem_nil name ⟨entry, hentry, hname⟩

/-! ## Requests -/

/-- `options.Writes operation fragments text`: the text consists of the texts of the operation and
of the fragments, without the line breaks at their ends and with a blank line between them. -/
def Options.Writes (options : Options) (operation : Operation)
    (fragments : List Fragment) (text : String) : Prop :=
  ∃ pieces, List.Forall₂ TrimsBreaks
      (options.operationText operation :: fragments.map options.fragmentText) pieces ∧
    text = "\n\n".intercalate pieces

namespace Linked

variable {schema : Schema} {documents accompanying : List Document} {linked : Linked}

theorem requestText_of_operationModel {built : List (Name × FragmentModel)}
    {operation : LinkedOperation} {operationModel : OperationModel}
    (h : (Linked.operationModel linked built operation).result = .ok operationModel) :
    ∃ reached, Resolved.reachedFragments operation.selections = .ok reached ∧
      operationModel.requestText =
        requestText linked.options linked.library operation.operation reached := by
  unfold Linked.operationModel at h
  split at h
  · nomatch h
  · split at h
    · nomatch h
    · obtain ⟨vars, -, h⟩ := Traced.result_bind_eq_ok.1 h
      obtain ⟨data, -, h⟩ := Traced.result_bind_eq_ok.1 h
      obtain ⟨reached, hreached, h⟩ := Traced.result_bind_eq_ok.1 h
      obtain ⟨-, -, h⟩ := Traced.result_bind_eq_ok.1 h
      obtain rfl := Except.ok.inj h
      exact ⟨reached, Traced.result_ofDocument.1 hreached, rfl⟩

/-- The text of a request is made of the texts of its definitions. -/
theorem requestText_eq (options : Options) (library : Library) (operation : Operation)
    (names : List Name) :
    requestText options library operation names = "\n\n".intercalate
      ((options.operationText operation ::
        (library.definitions names).map options.fragmentText).map trimBreaks) := by
  rw [Library.definitions, List.map_filterMap]
  simp only [requestText, Library.definition?, Option.map_map, Function.comp_def]

theorem writes_requestText (options : Options) (library : Library) (operation : Operation)
    (names : List Name) :
    options.Writes operation (library.definitions names)
      (requestText options library operation names) := by
  refine ⟨_, ?_, requestText_eq options library operation names⟩
  rw [List.forall₂_map_right_iff, List.forall₂_same]
  exact fun text _ => trimsBreaks_trimBreaks text

/-- The text of an operation of a model, by the definition of the operation. -/
theorem exists_goesWith {operation : LinkedOperation} {built : List (Name × FragmentModel)}
    {operationModel : OperationModel} (hfrom : LinkedFrom schema documents accompanying linked)
    (hmem : operation ∈ linked.operations)
    (h : (Linked.operationModel linked built operation).result = .ok operationModel) :
    ∃ fragments, operation.operation.GoesWith linked.library fragments ∧
      linked.options.Writes operation.operation fragments operationModel.requestText := by
  obtain ⟨written, -, hwritten, -, hresolve⟩ := exists_of_forall₂_of_mem hfrom.operations hmem
  rw [← hwritten] at hresolve
  obtain ⟨reached, hreached, htext⟩ := requestText_of_operationModel h
  obtain ⟨met, hmeets, houtcome⟩ := Library.reachedFragments_of_resolve hresolve
  obtain ⟨hdefined, rfl⟩ := Library.outcome_eq_ok.1 (houtcome.symm.trans hreached)
  have hnames : ∀ name entry, linked.library.entry? name = some entry →
      entry.fragment.name = name := by
    intro name entry hentry
    have hmem := mem_of_lookup_eq_some hentry
    rw [hfrom.library_eq] at hmem
    exact (Library.mem_entries hmem).1.symm
  refine ⟨_, Operation.goesWith_of_meets hnames hmeets hdefined, ?_⟩
  rw [htext]
  exact writes_requestText ..

end Linked

/-- **Requests are closed and minimal.**

Resolve any selections with the fragments of any library, which may spread each other in any way,
for any number of rounds.  Collecting the fragments of the selections fails, with an error that
names the fragment, exactly if a spread that the selections reach names no fragment of the library.
Otherwise it lists exactly the fragments that the selections reach, each once, in the order in which
a depth-first walk first meets them.

However operations and fragments are written out, in a model of any documents, which may have
fragments inside themselves, the text of every operation is its own text followed by the texts of
the fragments that it goes with, without line breaks at their ends and with a blank line between
them. -/
theorem requestText_closed :
    (∀ (library : Library) (schema : Schema) (rounds : Nat) (type : Name)
        (selections : List Selection) (resolved : List Resolved),
        library.resolve schema rounds type selections = .ok resolved →
      ((∃ name, Resolved.reachedFragments resolved = .error (.unknownFragment name)) ↔
        ∃ name, library.Reaches selections name ∧ library.entry? name = none) ∧
      ((∀ name, library.Reaches selections name → library.entry? name ≠ none) →
        ∃ names met, Resolved.reachedFragments resolved = .ok names ∧ names.Nodup ∧
          (∀ name, name ∈ names ↔ library.Reaches selections name) ∧
          library.Meets [] selections met ∧ names = distinct met)) ∧
    ∀ (options : Options) (schema : Schema) (documents accompanying : List Document)
        (linked : Linked) (config : Config) (model : Model),
      Linked.ofDocuments options schema documents accompanying = .ok linked →
      (linked.build config).result = .ok model →
      List.Forall₂ (fun (operation : Operation) (operationModel : OperationModel) =>
          ∃ fragments, operation.GoesWith (Library.ofDocuments documents accompanying) fragments ∧
            options.Writes operation fragments operationModel.requestText)
        (documents.flatMap Document.inOrder) model.operations := by
  refine ⟨fun library schema rounds type selections resolved hresolve => ?_,
    fun options schema documents accompanying linked config model hlink hbuild => ?_⟩
  · obtain ⟨met, hmeets, houtcome⟩ := Library.reachedFragments_of_resolve hresolve
    rw [houtcome, Library.outcome_eq_error]
    simp only [hmeets.mem_iff, true_and]
    intro hdefined
    have hall : ∀ name ∈ met, (library.entry? name).isSome = true := fun name hname =>
      Option.isSome_iff_ne_none.2 (hdefined name (hmeets.mem_iff.1 hname))
    refine ⟨distinct met, met, Library.outcome_eq_ok.2 ⟨hall, rfl⟩, nodup_distinct met,
      fun name => ?_, hmeets, rfl⟩
    rw [mem_distinct, hmeets.mem_iff]
  · have hfrom := Linked.linkedFrom hlink
    obtain ⟨order, built, hparts⟩ := Linked.buildFrom_of_result hbuild
    rw [← hfrom.library_eq, ← Linked.options_of_ofDocuments hlink]
    refine (hparts.forall₂_written hfrom).imp ?_
    rintro _ operationModel ⟨operation, hmem, rfl, hmodel⟩
    exact Linked.exists_goesWith hfrom hmem hmodel

/-! ## Mates

A pet has a mate, whose facts are those of a pet: the two fragments spread each other.  A search for
pets spreads a fragment with a fragment in it, and a loop one that spreads itself below a field to
which it does not apply. -/

namespace Mates

open Sample (schema select)

/-- Fragments that spread each other, one that spreads none, and one that spreads what is not
there. -/
def library : Library :=
  Library.ofDocuments
    [{ path := none
       operations := []
       fragments :=
         [⟨"Facts", "Pet", [], [select "name" [] [], .spread "Mate" []]⟩,
           ⟨"Mate", "Pet", [], [select "mate" [] [.spread "Facts" [], .spread "Names" []]]⟩,
           ⟨"Names", "Pet", [], [select "name" [] []]⟩,
           ⟨"Draft", "Pet", [], [.spread "Mate" [], .spread "Nothing" []]⟩] }] []

/-- Selections that spread a fragment of the library. -/
def pet (spread : Name) : List Selection :=
  [select "pet" [] [.spread spread [], .spread "Facts" []]]

theorem resolves_mate :
    (library.resolve schema 0 "Query" (pet "Mate")).toOption.isSome = true := by decide +kernel

theorem resolves_draft :
    (library.resolve schema 0 "Query" (pet "Draft")).toOption.isSome = true := by decide +kernel

def document : Document where
  path := none
  operations := [⟨.query, some "Search", [], [], [select "pet" [] [.spread "Outer" []]]⟩]
  fragments :=
    [⟨"Unused", "Pet", [], [.spread "Outer" []]⟩, ⟨"Inner", "Cat", [], [select "name" [] []]⟩,
      ⟨"Outer", "Pet", [], [.spread "Inner" []]⟩]

theorem builds : ∃ linked model, Linked.ofDocuments .standard schema [document] [] = .ok linked ∧
    (linked.build ⟨[]⟩).result = .ok model ∧
    model.operations.map OperationModel.requestText =
      ["query Search \x7b\n  pet \x7b\n    ...Outer\n  \x7d\n\x7d\n\n" ++
        "fragment Outer on Pet \x7b\n  ...Inner\n\x7d\n\n" ++
        "fragment Inner on Cat \x7b\n  name\n\x7d"] :=
  Linked.exists_of_built? (by decide +kernel)

def loop : Document where
  path := none
  operations := [⟨.query, some "Loop", [], [], [.spread "Again" []]⟩]
  fragments :=
    [⟨"Again", "Query", [], [select "pet" [] [select "name" [] [], .spread "Again" []]]⟩]

/-- Definitions are written out as their names with line breaks behind them. -/
def named : Options where
  operationText operation := operation.name.getD "" ++ "\n\n"
  fragmentText fragment := fragment.name ++ "\n"
  rounds := 1

theorem loop_builds : ∃ linked model, Linked.ofDocuments named schema [loop] [] = .ok linked ∧
    (linked.build ⟨[]⟩).result = .ok model ∧
    model.operations.map OperationModel.requestText = ["Loop\n\nAgain"] :=
  Linked.exists_of_built? (by decide +kernel)

end Mates

theorem requestText_closed_mates :
    (∃ resolved, Mates.library.resolve Sample.schema 0 "Query" (Mates.pet "Mate") = .ok resolved ∧
      Resolved.reachedFragments resolved = .ok ["Mate", "Facts", "Names"] ∧
      ∀ name, name ∈ ["Mate", "Facts", "Names"] ↔
        Mates.library.Reaches (Mates.pet "Mate") name) ∧
    (∃ name, Mates.library.Reaches (Mates.pet "Draft") name ∧
      Mates.library.entry? name = none) ∧
    (∃ linked model, Linked.ofDocuments .standard Sample.schema [Mates.document] [] = .ok linked ∧
      (linked.build ⟨[]⟩).result = .ok model ∧
      model.operations.map OperationModel.requestText =
        ["query Search \x7b\n  pet \x7b\n    ...Outer\n  \x7d\n\x7d\n\n" ++
          "fragment Outer on Pet \x7b\n  ...Inner\n\x7d\n\n" ++
          "fragment Inner on Cat \x7b\n  name\n\x7d"] ∧
      List.Forall₂ (fun (operation : Operation) (operationModel : OperationModel) =>
          ∃ fragments,
            operation.GoesWith (Library.ofDocuments [Mates.document] []) fragments ∧
            Options.standard.Writes operation fragments operationModel.requestText)
        ([Mates.document].flatMap Document.inOrder) model.operations) ∧
    ∃ linked model, Linked.ofDocuments Mates.named Sample.schema [Mates.loop] [] = .ok linked ∧
      (linked.build ⟨[]⟩).result = .ok model ∧
      model.operations.map OperationModel.requestText = ["Loop\n\nAgain"] ∧
      List.Forall₂ (fun (operation : Operation) (operationModel : OperationModel) =>
          ∃ fragments, operation.GoesWith (Library.ofDocuments [Mates.loop] []) fragments ∧
            Mates.named.Writes operation fragments operationModel.requestText)
        ([Mates.loop].flatMap Document.inOrder) model.operations := by
  have hmate := except_eq_ok_get Mates.resolves_mate
  have hdraft := except_eq_ok_get Mates.resolves_draft
  obtain ⟨linked, model, hlink, hbuild, htexts⟩ := Mates.builds
  obtain ⟨linked', model', hlink', hbuild', htexts'⟩ := Mates.loop_builds
  obtain ⟨hunknown, hnames⟩ := requestText_closed.1 _ _ _ _ _ _ hmate
  have hreached : Resolved.reachedFragments
      ((Mates.library.resolve Sample.schema 0 "Query" (Mates.pet "Mate")).toOption.get
        Mates.resolves_mate) = .ok ["Mate", "Facts", "Names"] := by decide +kernel
  refine ⟨⟨_, hmate, hreached, ?_⟩, ?_,
    ⟨linked, model, hlink, hbuild, htexts, requestText_closed.2 _ _ _ _ _ _ _ hlink hbuild⟩,
    linked', model', hlink', hbuild', htexts', requestText_closed.2 _ _ _ _ _ _ _ hlink' hbuild'⟩
  · obtain ⟨names, met, hok, -, hiff, -⟩ := hnames fun name hname hnone => by
      obtain ⟨error, herror⟩ := hunknown.2 ⟨name, hname, hnone⟩
      rw [hreached] at herror
      nomatch herror
    obtain rfl := Except.ok.inj (hreached.symm.trans hok)
    exact hiff
  · exact (requestText_closed.1 _ _ _ _ _ _ hdraft).1.1 ⟨"Nothing", by decide +kernel⟩

end ResponseModel
