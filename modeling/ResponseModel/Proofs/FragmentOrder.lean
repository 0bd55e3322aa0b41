import ResponseModel.Proofs.FragmentWalks
import ResponseModel.Proofs.InlinedSpreads
import ResponseModel.Proofs.ModelTrees
import ResponseModel.Proofs.Recursion
import ResponseModel.Proofs.RequestText

/-!
# Fragments are built after what they spread

The order in which the fragments of linked documents are built, in terms of their definitions.
There is one exactly if every spread in every definition names a fragment (`Library.Complete`), also
where fragments spread themselves, and it lists every fragment once.  Where none spreads itself,
every fragment comes after all that it spreads, directly or through others, and so the shapes of a
fragment are known wherever it is merged into another shape (`Builder.KnowsMerged`): a fragment that
is built too early would not fail, its shape would only lose what it refines.  Main statement:
`buildOrder_exact`.
-/

namespace ResponseModel

/-! ## Definitions that name fragments only -/

namespace Library

variable {library : Library}

/-- Every spread in every definition names a fragment of the library. -/
def Complete (library : Library) : Prop :=
  ∀ entry ∈ library.entries, library.Defines entry.2.fragment.selections

/-- In a complete library everything that a definition leads to is there. -/
theorem Complete.isSome_of_reaches (h : library.Complete) {name other : Name} {entry : Entry}
    (hentry : library.entry? name = some entry)
    (hreaches : library.Reaches entry.fragment.selections other) :
    (library.entry? other).isSome = true := by
  obtain ⟨first, hfirst, hpath⟩ := hreaches
  induction hpath with
  | refl => exact h (name, entry) (mem_of_lookup_eq_some hentry) first hfirst
  | tail _ hstep _ =>
      obtain ⟨entry', hentry', hmem⟩ := hstep
      exact h (_, entry') (mem_of_lookup_eq_some hentry') _ hmem

theorem exists_unknown_of_outcome_eq_error {reached met : List Name} {error : DocumentError}
    (h : library.outcome reached met = .error error) :
    ∃ name ∈ met, library.entry? name = none ∧ error = .unknownFragment name := by
  unfold outcome at h
  split at h
  · next name hfind =>
      refine ⟨name, List.mem_of_find?_eq_some hfind, ?_, (Except.error.inj h).symm⟩
      simpa using List.find?_some hfind
  · cases h

end Library

namespace Linked

variable {schema : Schema} {documents accompanying : List Document} {linked : Linked}
  {order : List Name}

section Order

variable (hfrom : LinkedFrom schema documents accompanying linked)
include hfrom

theorem LinkedFrom.names_bodies :
    linked.bodies.map Prod.fst = linked.library.entries.map Prod.fst := by
  rw [bodies, List.map_map, ← hfrom.names]
  rfl

theorem LinkedFrom.lookup_bodies_ne_none {name : Name}
    (h : (linked.library.entry? name).isSome = true) : linked.bodies.lookup name ≠ none := by
  obtain ⟨entry, hentry⟩ := Option.isSome_iff_exists.1 h
  obtain ⟨fragment, hlookup, -⟩ := hfrom.exists_fragment hentry
  rw [lookup_bodies.2 ⟨fragment, hlookup, rfl⟩]
  exact Option.some_ne_none _

/-- What the selections of a fragment reach, in terms of its definition. -/
theorem LinkedFrom.exists_meets {name : Name} {body : List Resolved}
    (h : linked.bodies.lookup name = some body) :
    ∃ entry met, linked.library.entry? name = some entry ∧
      linked.library.Meets [] entry.fragment.selections met ∧
      Resolved.reachedFragments body = linked.library.outcome [] met := by
  obtain ⟨fragment, hlookup, rfl⟩ := lookup_bodies.1 h
  obtain ⟨met, hmeets, hreached⟩ := Library.reachedFragments_of_resolve
    (hfrom.exists_entry (mem_of_lookup_eq_some hlookup)).2
  exact ⟨fragment.entry, met, hfrom.entry?_eq hlookup, hmeets, hreached⟩

/-- Only fragments are reached. -/
theorem LinkedFrom.lookup_of_reached {name : Name} {body : List Resolved} {reached : List Name}
    (hbody : linked.bodies.lookup name = some body)
    (hreached : Resolved.reachedFragments body = .ok reached) :
    ∀ other ∈ reached, linked.bodies.lookup other ≠ none := by
  intro other hother
  obtain ⟨entry, met, -, -, houtcome⟩ := hfrom.exists_meets hbody
  rw [hreached] at houtcome
  obtain ⟨hdefined, rfl⟩ := Library.outcome_eq_ok.1 houtcome.symm
  have hmet : other ∈ met := by simpa [mem_foldl_insertNew] using hother
  exact hfrom.lookup_bodies_ne_none (hdefined other hmet)

/-- A walk fails only where a definition leads to a fragment that is not there. -/
theorem LinkedFrom.unknown_of_ofBodies {error : DocumentError}
    (h : BuildOrder.ofBodies linked.bodies = .error error) :
    ¬linked.library.Complete ∧ ∃ name, error = .unknownFragment name := by
  obtain ⟨name, body, hbody, herror⟩ := BuildOrder.failsWith_of_ofBodies
    (fun name body reached hbody hreached => hfrom.lookup_of_reached hbody hreached) h
  obtain ⟨entry, met, hentry, hmeets, houtcome⟩ := hfrom.exists_meets hbody
  rw [herror] at houtcome
  obtain ⟨other, hother, hnone, rfl⟩ :=
    Library.exists_unknown_of_outcome_eq_error houtcome.symm
  refine ⟨fun hcomplete => ?_, other, rfl⟩
  have hsome := hcomplete.isSome_of_reaches hentry (hmeets.mem_iff.1 hother)
  simp [hnone] at hsome

/-- An order lists all fragments, and there is none unless all spreads name fragments. -/
theorem LinkedFrom.perm_of_ofBodies (h : BuildOrder.ofBodies linked.bodies = .ok order) :
    order.Perm (linked.library.entries.map Prod.fst) ∧ linked.library.Complete := by
  have hnodup : (linked.bodies.map Prod.fst).Nodup := by
    rw [hfrom.names_bodies, ← hfrom.names]
    exact hfrom.nodup_names
  obtain ⟨hperm, hreaching⟩ := BuildOrder.perm_of_ofBodies hnodup h
  rw [hfrom.names_bodies] at hperm hreaching
  refine ⟨hperm, fun entry hentry spread hspread => ?_⟩
  obtain ⟨body, reached, hbody, hreached⟩ := hreaching entry.1 (List.mem_map_of_mem hentry)
  obtain ⟨entry', met, hentry', hmeets, houtcome⟩ := hfrom.exists_meets hbody
  have hlookup : linked.library.entry? entry.1 = some entry.2 := by
    refine lookup_eq_some_of_mem ?_ hentry
    rw [hfrom.library_eq]
    exact Library.nodup_names documents accompanying
  obtain rfl := Option.some.inj (hlookup.symm.trans hentry')
  -- a spread of the definition is met on the way, and all that is met is there
  rw [hreached] at houtcome
  exact (Library.outcome_eq_ok.1 houtcome.symm).1 spread (hmeets.spreadsAll_subset hspread)

/-- Every fragment of an order is linked. -/
theorem LinkedFrom.exists_fragment_of_mem (h : BuildOrder.ofBodies linked.bodies = .ok order)
    {name : Name} (hname : name ∈ order) :
    ∃ fragment, linked.fragments.lookup name = some fragment := by
  have hentry := (hfrom.perm_of_ofBodies h).1.mem_iff.1 hname
  rw [← hfrom.names, List.mem_map] at hentry
  exact exists_lookup_of_exists_mem hentry

/-- Where no fragment spreads itself, each comes after all that it leads to. -/
theorem LinkedFrom.mem_before_of_path (hacyclic : linked.library.Acyclic)
    (h : BuildOrder.ofBodies linked.bodies = .ok order) {before after : List Name}
    {name other : Name} (hsplit : order = before ++ name :: after)
    (hpath : Relation.TransGen linked.library.Spreads name other) : other ∈ before := by
  obtain ⟨hordered, -⟩ := BuildOrder.ordered_of_ofBodies (hfrom.acyclic_uses hacyclic) h
  obtain ⟨body, reached, hbody, hreached, hearlier⟩ := hordered.exists_reached hsplit
  obtain ⟨entry, met, hentry, hmeets, houtcome⟩ := hfrom.exists_meets hbody
  rw [hreached] at houtcome
  obtain ⟨-, rfl⟩ := Library.outcome_eq_ok.1 houtcome.symm
  obtain ⟨first, ⟨entry', hentry', hfirst⟩, hrest⟩ := Relation.TransGen.head'_iff.1 hpath
  obtain rfl := Option.some.inj (hentry.symm.trans hentry')
  apply hearlier other
  rw [mem_foldl_insertNew]
  exact .inr (hmeets.mem_iff.2 ⟨first, hfirst, hrest⟩)

end Order

end Linked

/-! ## Merged fragments -/

namespace Builder

/-- Whenever fields are collected for a shape while the request is built, the fragments that are
merged into the shape are among those whose shapes are known. -/
def KnowsMerged (builder : Builder) (request : Request) : Prop :=
  ∀ below, Relation.ReflTransGen builder.Asks request below → ∀ typeSet collected,
    collect (builder.schema.applies typeSet (builder.schema.commonTypes typeSet.names))
      below.branches = .ok collected →
    ∀ name ∈ collected.fragments, ∃ shapes, builder.fragmentShapes.lookup name = some shapes

variable {builder : Builder} {type : Name} {selections : List Resolved} {root : Path}

/-- All that is asked for is part of the selections at the top. -/
theorem nodesAll_subset_of_asks {request : Request}
    (h : Relation.ReflTransGen builder.Asks (rootRequest type selections root) request) :
    ∀ part ∈ request.branches.map Prod.fst,
      Resolved.nodesAll part ⊆ Resolved.nodesAll selections := by
  induction h with
  | refl =>
      intro part hpart
      rw [rootRequest, List.map_singleton, List.mem_singleton] at hpart
      rw [hpart]
      exact List.Subset.refl _
  | tail _ hasks ih =>
      cases hasks with
      | field parents hcollected hentry =>
          exact nodesAll_subset_of_collect hcollected ih hentry

theorem knowsMerged_of_spreads
    (h : ∀ name directives type below,
      .spread name directives type below ∈ Resolved.nodesAll selections →
      ∃ shapes, builder.fragmentShapes.lookup name = some shapes) :
    builder.KnowsMerged (rootRequest type selections root) := by
  intro below hbelow typeSet collected hcollected name hname
  obtain ⟨type, merged, hmerges⟩ := merges_of_mem_fragments hcollected hname
  obtain ⟨part, hpart, directives, hnode⟩ := hmerges.spread
  exact h name directives type merged (nodesAll_subset_of_asks hbelow part hpart hnode)

end Builder

namespace Linked

variable {options : Options} {schema : Schema} {documents accompanying : List Document}
  {linked : Linked} {order : List Name}

/-- A builder knows the shapes of the fragments that were built. -/
theorem exists_shapes_of_mem {names : List Name} {built : List (Name × FragmentModel)}
    (hbuilt : (fragmentModels linked [] names).result = .ok built) {name : Name}
    (hname : name ∈ names) :
    ∃ shapes, (builderAfter linked.schema built).fragmentShapes.lookup name = some shapes := by
  obtain ⟨added, hadded, hnames, -⟩ := fragmentModels_result hbuilt
  rw [List.nil_append] at hadded
  rw [← hnames, ← hadded, List.mem_map] at hname
  obtain ⟨model, hmodel⟩ := exists_lookup_of_exists_mem hname
  exact ⟨_, lookup_fragmentShapes.2 ⟨model, hmodel, rfl⟩⟩

/-- The order is right: every fragment comes after those that it spreads, directly or through
others, and neither a fragment in its turn nor an operation after all of them merges a fragment
whose shapes are not known yet. -/
structure Precedes (linked : Linked) (order : List Name) : Prop where
  spreads : ∀ before name after, order = before ++ name :: after →
    ∀ other, Relation.TransGen linked.library.Spreads name other → other ∈ before
  fragment : ∀ before name after, order = before ++ name :: after →
    ∀ fragment, linked.fragments.lookup name = some fragment →
    ∀ built, (fragmentModels linked [] before).result = .ok built →
      (builderAfter linked.schema built).KnowsMerged (Builder.rootRequest
        fragment.entry.fragment.onType fragment.selections (.atRoot name .fragment))
  operation : ∀ operation ∈ linked.operations,
    ∀ built, (fragmentModels linked [] order).result = .ok built →
      ∀ root, (builderAfter linked.schema built).KnowsMerged
        (Builder.rootRequest operation.onType operation.selections root)

theorem LinkedFrom.precedes (hfrom : LinkedFrom schema documents accompanying linked)
    (hacyclic : linked.library.Acyclic) (h : BuildOrder.ofBodies linked.bodies = .ok order) :
    linked.Precedes order where
  spreads := fun before name after hsplit other hpath =>
    hfrom.mem_before_of_path hacyclic h hsplit hpath
  fragment := by
    intro before name after hsplit fragment hlookup built hbuilt
    obtain ⟨hordered, -⟩ := BuildOrder.ordered_of_ofBodies (hfrom.acyclic_uses hacyclic) h
    rw [hsplit] at hordered
    refine Builder.knowsMerged_of_spreads fun other directives type below hnode => ?_
    exact exists_shapes_of_mem hbuilt (hfrom.mem_before hacyclic hordered hlookup hnode)
  operation := by
    intro operation hoperation built hbuilt root
    refine Builder.knowsMerged_of_spreads fun other directives type below hnode => ?_
    obtain ⟨fragment, hlookup, -⟩ := hfrom.sound_of_mem_nodes hacyclic
      (hfrom.resolution_operation hacyclic hoperation) _ hnode
    have hmem : other ∈ linked.library.entries.map Prod.fst :=
      List.mem_map_of_mem (mem_of_lookup_eq_some (hfrom.entry?_eq hlookup))
    exact exists_shapes_of_mem hbuilt ((hfrom.perm_of_ofBodies h).1.mem_iff.2 hmem)

/-- **Fragments are built after everything that they spread.**  The walks that order the fragments
of linked documents end, also where fragments spread themselves.  They fail exactly if some spread
in some definition names no fragment, and then with an unknown fragment.  Otherwise the order lists
every fragment once and nothing else, so that every name in it is found; and where no fragment
spreads itself, each comes after those that it spreads, and what is merged is always built. -/
theorem buildOrder_exact (hlink : ofDocuments options schema documents accompanying = .ok linked) :
    (∀ outcome, BuildOrder.Lists linked.bodies [] (linked.bodies.map Prod.fst) outcome ↔
      outcome = BuildOrder.ofBodies linked.bodies) ∧
    ((∃ name, BuildOrder.ofBodies linked.bodies = .error (.unknownFragment name)) ↔
      ∃ entry ∈ linked.library.entries, ∃ spread ∈ Selection.spreadsAll entry.2.fragment.selections,
        linked.library.entry? spread = none) ∧
    ((∀ entry ∈ linked.library.entries, ∀ spread ∈ Selection.spreadsAll entry.2.fragment.selections,
        linked.library.entry? spread ≠ none) →
      ∃ order, BuildOrder.ofBodies linked.bodies = .ok order ∧
        order.Perm (linked.library.entries.map Prod.fst) ∧
        (∀ name ∈ order, ∃ fragment, linked.fragments.lookup name = some fragment) ∧
        (linked.library.Acyclic → linked.Precedes order)) := by
  have hfrom := linkedFrom hlink
  have hcomplete : linked.library.Complete ↔ ∀ entry ∈ linked.library.entries,
      ∀ spread ∈ Selection.spreadsAll entry.2.fragment.selections,
        linked.library.entry? spread ≠ none := by
    simp only [Library.Complete, Library.Defines, Option.isSome_iff_ne_none]
  refine ⟨fun outcome => BuildOrder.lists_iff, ?_, fun hall => ?_⟩
  · cases hresult : BuildOrder.ofBodies linked.bodies with
    | error error =>
        obtain ⟨hincomplete, name, rfl⟩ := hfrom.unknown_of_ofBodies hresult
        rw [hcomplete] at hincomplete
        push Not at hincomplete
        exact ⟨fun _ => hincomplete, fun _ => ⟨name, rfl⟩⟩
    | ok order =>
        have hall := hcomplete.1 (hfrom.perm_of_ofBodies hresult).2
        constructor
        · rintro ⟨name, herror⟩
          cases herror
        · rintro ⟨entry, hentry, spread, hspread, hnone⟩
          exact absurd hnone (hall entry hentry spread hspread)
  · cases hresult : BuildOrder.ofBodies linked.bodies with
    | error error => exact absurd (hcomplete.2 hall) (hfrom.unknown_of_ofBodies hresult).1
    | ok order =>
        exact ⟨order, rfl, (hfrom.perm_of_ofBodies hresult).1,
          fun name hname => hfrom.exists_fragment_of_mem hresult hname,
          fun hacyclic => hfrom.precedes hacyclic hresult⟩

end Linked

namespace Rounds

open Sample (schema select)

/-- Documents with the given fragments and no operations. -/
def documents (fragments : List Fragment) : List Document := [⟨none, [], fragments⟩]

/-- Fragments that spread each other, and one that both spread. -/
def circle : List Fragment :=
  [⟨"Facts", "Pet", [], [select "name" [] [], .spread "Mate" []]⟩,
    ⟨"Mate", "Pet", [], [select "mate" [] [.spread "Facts" [], .spread "Names" []]]⟩,
    ⟨"Names", "Pet", [], [select "name" [] []]⟩]

/-- The same with a fragment that spreads what is not there. -/
def draft : List Fragment := circle ++ [⟨"Draft", "Pet", [], [.spread "Nothing" []]⟩]

theorem circle_links :
    (Linked.ofDocuments .standard schema (documents circle) []).toOption.isSome = true := by
  decide +kernel

theorem draft_links :
    (Linked.ofDocuments .standard schema (documents draft) []).toOption.isSome = true := by
  decide +kernel

theorem not_acyclic : ¬(Library.ofDocuments (documents circle) []).Acyclic := by
  intro hacyclic
  have hfacts : (Library.ofDocuments (documents circle) []).Spreads "Facts" "Mate" :=
    ⟨_, rfl, by decide⟩
  have hmate : (Library.ofDocuments (documents circle) []).Spreads "Mate" "Facts" :=
    ⟨_, rfl, by decide⟩
  exact hacyclic "Facts" (.tail (.single hfacts) hmate)

end Rounds

theorem Linked.buildOrder_exact_rounds :
    (∃ linked,
      Linked.ofDocuments .standard Sample.schema (Rounds.documents Rounds.circle) [] = .ok linked ∧
      ¬linked.library.Acyclic ∧ ∃ order, BuildOrder.ofBodies linked.bodies = .ok order ∧
        order.Perm ["Facts", "Mate", "Names"]) ∧
    (∃ linked,
      Linked.ofDocuments .standard Sample.schema (Rounds.documents Rounds.draft) [] = .ok linked ∧
      ∃ name, BuildOrder.ofBodies linked.bodies = .error (.unknownFragment name)) ∧
    ∃ linked, Linked.ofDocuments .standard Sample.schema [Mates.document] [] = .ok linked ∧
      ∃ order, BuildOrder.ofBodies linked.bodies = .ok order ∧ linked.Precedes order := by
  refine ⟨⟨_, except_eq_ok_get Rounds.circle_links, ?_, ?_⟩,
    ⟨_, except_eq_ok_get Rounds.draft_links, ?_⟩, ?_⟩
  · rw [(Linked.linkedFrom (except_eq_ok_get Rounds.circle_links)).library_eq]
    exact Rounds.not_acyclic
  · obtain ⟨order, horder, hperm, -⟩ :=
      (Linked.buildOrder_exact (except_eq_ok_get Rounds.circle_links)).2.2 (by decide +kernel)
    exact ⟨order, horder, hperm.trans (by decide +kernel)⟩
  · exact (Linked.buildOrder_exact (except_eq_ok_get Rounds.draft_links)).2.1.2 (by decide +kernel)
  · obtain ⟨linked, model, hlink, hbuild, -⟩ := Mates.builds
    have hlibrary := (Linked.linkedFrom hlink).library_eq
    obtain ⟨order, horder, -, -, hprecedes⟩ := (Linked.buildOrder_exact hlink).2.2 (by
      rw [hlibrary]
      decide +kernel)
    refine ⟨linked, hlink, order, horder, hprecedes ?_⟩
    rw [hlibrary]
    exact Library.acyclic_of_rank
      (fun name => if name = "Unused" then 2 else if name = "Outer" then 1 else 0)
      (by decide +kernel)

end ResponseModel
