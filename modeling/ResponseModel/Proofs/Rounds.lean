import ResponseModel.Proofs.Continuation
import ResponseModel.Proofs.Dependencies

/-!
# Rounds

A fragment that spreads itself is entered again for a number of rounds, and then its spread is cut
off.  The rounds are no part of what documents mean.  Whether documents can be linked does not
depend on them (`Linked.exists_ofDocuments_rounds`), and a build that is not cut off is the same for
every larger number of rounds (`Linked.Continued.build_eq`).  Main statement:
`Model.ofDocuments_eq_build`, adding rounds until a build is not cut off gives the outcome that all
further rounds would give.
-/

namespace ResponseModel

/-! ## Linking -/

/-- Whether selections can be resolved depends on their fields, where all spreads can be. -/
theorem Selection.exists_resolveAll {schema : Schema}
    {target target' : Name → List Directive → Except UndefinedField Resolved} {parent : Name}
    {selections : List Selection} {resolved : List Resolved}
    (htarget : ∀ name directives, ∃ first, target' name directives = .ok first)
    (h : resolveAll schema target parent selections = .ok resolved) :
    ∃ resolved', resolveAll schema target' parent selections = .ok resolved' := by
  induction selections using forest_induction generalizing parent resolved with
  | nil => exact ⟨[], rfl⟩
  | field node selections rest ihbelow ihrest =>
      obtain ⟨first, hfirst, h⟩ := except_bind_eq_ok.1 h
      obtain ⟨others, hothers, -⟩ := except_bind_eq_ok.1 h
      obtain ⟨others', hothers'⟩ := ihrest hothers
      rw [resolve] at hfirst
      split at hfirst
      · cases hfirst
      · next definition hdefinition =>
          obtain ⟨below, hbelow, -⟩ := except_map_eq_ok.1 hfirst
          obtain ⟨below', hbelow'⟩ := ihbelow hbelow
          rw [resolveAll, resolve, hdefinition, hothers']
          simp only [hbelow']
          exact ⟨_, rfl⟩
  | spread name directives rest ihrest =>
      obtain ⟨first, -, h⟩ := except_bind_eq_ok.1 h
      obtain ⟨others, hothers, -⟩ := except_bind_eq_ok.1 h
      obtain ⟨others', hothers'⟩ := ihrest hothers
      obtain ⟨first', hfirst'⟩ := htarget name directives
      rw [resolveAll, resolve, hfirst', hothers']
      exact ⟨_, rfl⟩
  | inline condition directives selections rest ihbelow ihrest =>
      obtain ⟨first, hfirst, h⟩ := except_bind_eq_ok.1 h
      obtain ⟨others, hothers, -⟩ := except_bind_eq_ok.1 h
      obtain ⟨others', hothers'⟩ := ihrest hothers
      obtain ⟨below, hbelow, -⟩ := except_map_eq_ok.1 hfirst
      obtain ⟨below', hbelow'⟩ := ihbelow hbelow
      rw [resolveAll, resolve, hbelow', hothers']
      exact ⟨_, rfl⟩

/-- Where all fragments can be resolved, so can every spread, with any number of rounds. -/
theorem Library.exists_resolveSpread {library : Library} {schema : Schema}
    (h : ∀ entry ∈ library.entries, ∃ target resolved, Selection.resolveAll schema target
      entry.2.fragment.onType entry.2.fragment.selections = .ok resolved)
    (rounds fuel : Nat) (inside : List Name) (name : Name) (directives : List Directive) :
    ∃ first, library.resolveSpread schema rounds fuel inside name directives = .ok first := by
  induction fuel generalizing inside name directives with
  | zero => exact ⟨_, rfl⟩
  | succ fuel ih =>
      rw [resolveSpread]
      split
      · exact ⟨_, rfl⟩
      · next entry hentry =>
          split
          · exact ⟨_, rfl⟩
          · obtain ⟨target, resolved, hresolved⟩ := h _ (mem_of_lookup_eq_some hentry)
            obtain ⟨below, hbelow⟩ :=
              Selection.exists_resolveAll (ih (name :: inside)) hresolved
            rw [hbelow]
            exact ⟨_, rfl⟩

namespace Linked

variable {options : Options} {schema : Schema} {documents accompanying : List Document}
  {linked linked' : Linked} {config : Config}

/-- The rounds do not decide whether documents can be linked. -/
theorem exists_ofDocuments_rounds
    (h : ofDocuments options schema documents accompanying = .ok linked) (rounds : Nat) :
    ∃ linked', ofDocuments { options with rounds } schema documents accompanying = .ok linked' := by
  obtain ⟨-, rfl, hlibrary, hfragments, hoperations⟩ := ofDocuments_eq_ok.1 h
  have hbodies : ∀ entry ∈ linked.library.entries, ∃ target resolved, Selection.resolveAll
      linked.schema target entry.2.fragment.onType entry.2.fragment.selections = .ok resolved := by
    intro entry hentry
    obtain ⟨fragment, -, hfragment⟩ := exists_of_forall₂_of_mem hfragments.flip hentry
    obtain ⟨selections, hselections, -⟩ := except_bind_eq_ok.1 hfragment
    exact ⟨_, selections, hselections⟩
  -- spreads can be resolved whatever the rounds are, since all bodies have been resolved once
  have hresolve : ∀ {type written resolved},
      linked.library.resolve linked.schema options.rounds type written = .ok resolved →
        ∃ resolved', linked.library.resolve linked.schema rounds type written = .ok resolved' :=
    Selection.exists_resolveAll (Library.exists_resolveSpread hbodies rounds _ [])
  obtain ⟨fragments, hfragments⟩ : ∃ fragments, List.Forall₂ (fun entry fragment =>
      Linked.fragment linked.schema linked.library rounds entry = .ok fragment)
      linked.library.entries fragments := by
    refine exists_forall₂_of_forall_mem fun entry hentry => ?_
    obtain ⟨fragment, -, hfragment⟩ := exists_of_forall₂_of_mem hfragments.flip hentry
    obtain ⟨selections, hselections, -⟩ := except_bind_eq_ok.1 hfragment
    obtain ⟨selections', hselections'⟩ := hresolve hselections
    exact ⟨_, except_bind_eq_ok.2 ⟨selections', hselections', rfl⟩⟩
  obtain ⟨operations, hoperations⟩ : ∃ operations, List.Forall₂
      (fun (written : String × Operation) operation => Linked.operation linked.schema
        linked.library rounds written.1 written.2 = .ok operation)
      (documents.flatMap fun document =>
        document.inOrder.map fun operation => (document.filePath, operation)) operations := by
    refine exists_forall₂_of_forall_mem fun written hwritten => ?_
    obtain ⟨operation, -, hoperation⟩ := exists_of_forall₂_of_mem hoperations.flip hwritten
    obtain ⟨selections, hselections, -⟩ := except_bind_eq_ok.1 hoperation
    obtain ⟨selections', hselections'⟩ := hresolve hselections
    exact ⟨_, except_bind_eq_ok.2 ⟨selections', hselections', rfl⟩⟩
  exact ⟨⟨{ options with rounds }, linked.schema, linked.library, fragments, operations⟩,
    ofDocuments_eq_ok.2 ⟨rfl, rfl, hlibrary, hfragments, hoperations⟩⟩

/-! ## The same documents with more rounds -/

/-- A fragment whose selections go on. -/
structure FragmentGoesOn (fragment fragment' : Name × LinkedFragment) : Prop where
  name : fragment.1 = fragment'.1
  entry : fragment.2.entry = fragment'.2.entry
  selections : Resolved.Extends [] fragment.2.selections fragment'.2.selections

/-- An operation whose selections go on. -/
structure OperationGoesOn (first second : LinkedOperation) : Prop where
  operation : first.operation = second.operation
  onType : first.onType = second.onType
  filePath : first.filePath = second.filePath
  selections : Resolved.Extends [] first.selections second.selections

/-- The second documents are linked like the first, and their selections go on. -/
structure Continued (linked linked' : Linked) : Prop where
  texts : linked'.options = { linked.options with rounds := linked'.options.rounds }
  schema : linked.schema = linked'.schema
  library : linked.library = linked'.library
  fragments : List.Forall₂ FragmentGoesOn linked.fragments linked'.fragments
  operations : List.Forall₂ OperationGoesOn linked.operations linked'.operations

/-- Documents that are linked again with more rounds go on. -/
theorem continued {rounds : Nat} (hle : options.rounds ≤ rounds)
    (h : ofDocuments options schema documents accompanying = .ok linked)
    (h' : ofDocuments { options with rounds } schema documents accompanying = .ok linked') :
    linked.Continued linked' := by
  obtain ⟨rfl, rfl, hlibrary, hfragments, hoperations⟩ := ofDocuments_eq_ok.1 h
  obtain ⟨hoptions', hschema', hlibrary', hfragments', hoperations'⟩ := ofDocuments_eq_ok.1 h'
  have hsame := hlibrary.trans hlibrary'.symm
  rw [← hsame] at hfragments' hoperations'
  refine ⟨by rw [hoptions'], hschema'.symm, hsame, ?_, ?_⟩
  · refine forall₂_comp hfragments.flip hfragments' ?_
    rintro fragment ⟨name, entry⟩ fragment' hfragment hfragment'
    obtain ⟨selections, hselections, hfragment⟩ := except_bind_eq_ok.1 hfragment
    obtain ⟨selections', hselections', hfragment'⟩ := except_bind_eq_ok.1 hfragment'
    obtain rfl := Except.ok.inj hfragment
    obtain rfl := Except.ok.inj hfragment'
    exact ⟨rfl, rfl, (Library.unfolding_of_resolve hselections).extends hle
      (Library.unfolding_of_resolve hselections')⟩
  · refine forall₂_comp hoperations.flip hoperations' ?_
    rintro operation ⟨filePath, written⟩ operation' hoperation hoperation'
    obtain ⟨selections, hselections, hoperation⟩ := except_bind_eq_ok.1 hoperation
    obtain ⟨selections', hselections', hoperation'⟩ := except_bind_eq_ok.1 hoperation'
    obtain rfl := Except.ok.inj hoperation
    obtain rfl := Except.ok.inj hoperation'
    exact ⟨rfl, rfl, rfl, (Library.unfolding_of_resolve hselections).extends hle
      (Library.unfolding_of_resolve hselections')⟩

/-- A name stands for no fragment in both, or for fragments of which the second goes on. -/
theorem lookup_goesOn {fragments fragments' : List (Name × LinkedFragment)}
    (h : List.Forall₂ FragmentGoesOn fragments fragments') (name : Name) :
    (fragments.lookup name = none ∧ fragments'.lookup name = none) ∨
      ∃ fragment fragment', fragments.lookup name = some fragment ∧
        fragments'.lookup name = some fragment' ∧
        FragmentGoesOn (name, fragment) (name, fragment') := by
  induction h with
  | nil => exact .inl ⟨rfl, rfl⟩
  | @cons head head' rest rest' hhead _ ih =>
      obtain ⟨key, fragment⟩ := head
      obtain ⟨key', fragment'⟩ := head'
      obtain rfl : key = key' := hhead.name
      rw [List.lookup_cons, List.lookup_cons]
      split
      · exact .inr ⟨fragment, fragment', rfl, rfl, rfl, hhead.entry, hhead.selections⟩
      · exact ih

theorem filterMap_lookup_eq {fragments fragments' : List (Name × LinkedFragment)}
    (h : List.Forall₂ FragmentGoesOn fragments fragments') (built : List (Name × FragmentModel)) :
    (fragments.filterMap fun (name, _) => built.lookup name) =
      fragments'.filterMap fun (name, _) => built.lookup name := by
  induction h with
  | nil => rfl
  | @cons head head' _ _ hhead _ ih =>
      obtain ⟨name, fragment⟩ := head
      obtain ⟨name', fragment'⟩ := head'
      obtain rfl : name = name' := hhead.name
      rw [List.filterMap_cons, List.filterMap_cons, ih]

theorem map_filter_own_eq {fragments fragments' : List (Name × LinkedFragment)}
    (h : List.Forall₂ FragmentGoesOn fragments fragments') :
    (fragments.filter fun (_, fragment) => fragment.entry.own).map Prod.fst =
      (fragments'.filter fun (_, fragment) => fragment.entry.own).map Prod.fst := by
  induction h with
  | nil => rfl
  | @cons head head' _ _ hhead _ ih =>
      obtain ⟨name, fragment⟩ := head
      obtain ⟨name', fragment'⟩ := head'
      obtain rfl : name = name' := hhead.name
      have hentry : fragment.entry = fragment'.entry := hhead.entry
      simp only [List.filter_cons, hentry]
      split
      · rw [List.map_cons, List.map_cons, ih]
      · exact ih

end Linked

/-! ## The build order -/

/-- A walk looks at the fragments that a body reaches, not at the body. -/
theorem BuildOrder.visit_congr {bodies bodies' : List (Name × List Resolved)}
    (h : ∀ name, (bodies.lookup name).map Resolved.reachedFragments =
      (bodies'.lookup name).map Resolved.reachedFragments) (fuel : Nat) :
    visit bodies fuel = visit bodies' fuel := by
  induction fuel with
  | zero => rfl
  | succ fuel ih =>
      funext walk name
      rw [visit, visit, ih]
      have hname := h name
      cases hbody : bodies.lookup name with
      | none =>
          rw [hbody] at hname
          rw [Option.map_eq_none_iff.1 hname.symm]
      | some body =>
          rw [hbody] at hname
          obtain ⟨body', hbody', hreached⟩ := Option.map_eq_some_iff.1 hname.symm
          simp only [hbody', hreached]

namespace Linked

variable {linked linked' : Linked}

theorem Continued.buildOrder_eq (h : linked.Continued linked') :
    BuildOrder.ofBodies linked.bodies = BuildOrder.ofBodies linked'.bodies := by
  have hnames : linked.bodies.map Prod.fst = linked'.bodies.map Prod.fst := by
    rw [← List.forall₂_eq_eq_eq, bodies, bodies, List.map_map, List.map_map,
      List.forall₂_map_left_iff, List.forall₂_map_right_iff]
    exact h.fragments.imp fun _ _ hfragment => hfragment.name
  have hlookup : ∀ name, (linked.bodies.lookup name).map Resolved.reachedFragments =
      (linked'.bodies.lookup name).map Resolved.reachedFragments := by
    intro name
    rw [bodies, bodies, lookup_map_snd LinkedFragment.selections,
      lookup_map_snd LinkedFragment.selections]
    rcases lookup_goesOn h.fragments name with
      ⟨hnone, hnone'⟩ | ⟨fragment, fragment', hsome, hsome', hfragment⟩
    · rw [hnone, hnone']
    · rw [hsome, hsome']
      exact congrArg some (hfragment.selections.reachAll_eq (List.Subset.refl _))
  have hlength : linked.bodies.length = linked'.bodies.length := by
    simpa using congrArg List.length hnames
  have hvisitAll : ∀ names order, BuildOrder.visitAll linked.bodies names order =
      BuildOrder.visitAll linked'.bodies names order := by
    intro names
    induction names with
    | nil => exact fun _ => rfl
    | cons name rest ih =>
        intro order
        rw [BuildOrder.visitAll, BuildOrder.visitAll, hlength, BuildOrder.visit_congr hlookup]
        exact except_bind_congr fun walk _ => ih walk.order
  rw [BuildOrder.ofBodies, BuildOrder.ofBodies, hnames, hvisitAll]

/-! ## The models of fragments and operations -/

theorem fragmentModel_sameUnlessCut {fragment fragment' : LinkedFragment} {name : Name}
    (h : FragmentGoesOn (name, fragment) (name, fragment')) (schema : Schema)
    (built : List (Name × FragmentModel)) :
    (fragmentModel schema built fragment).SameUnlessCut
      (fragmentModel schema built fragment') := by
  have huses : Resolved.usesAll schema [] fragment.selections =
      Resolved.usesAll schema [] fragment'.selections :=
    h.selections.usesAll_eq schema (List.Subset.refl _)
  have hentry : fragment.entry = fragment'.entry := h.entry
  simp only [fragmentModel, Inference.infer, huses, hentry]
  refine .bind (.refl _) fun inferred => .bind (.refl _) fun vars => .bind ?_ fun data => .refl _
  exact Builder.dataField_sameUnlessCut ⟨[], h.selections⟩ _ _

theorem Continued.fragmentModels_sameUnlessCut (h : linked.Continued linked')
    (built : List (Name × FragmentModel)) (names : List Name) :
    (linked.fragmentModels built names).SameUnlessCut (linked'.fragmentModels built names) := by
  induction names generalizing built with
  | nil => exact .refl _
  | cons name rest ih =>
      rw [fragmentModels, fragmentModels, ← h.schema]
      rcases lookup_goesOn h.fragments name with
        ⟨hnone, hnone'⟩ | ⟨fragment, fragment', hsome, hsome', hfragment⟩
      · rw [hnone, hnone']
        exact .refl _
      · rw [hsome, hsome']
        exact (fragmentModel_sameUnlessCut hfragment _ built).bind fun model => ih _

theorem Continued.operationModel_sameUnlessCut (h : linked.Continued linked')
    {operation operation' : LinkedOperation} (hoperation : OperationGoesOn operation operation')
    (built : List (Name × FragmentModel)) :
    (linked.operationModel built operation).SameUnlessCut
      (linked'.operationModel built operation') := by
  have hreached : Resolved.reachedFragments operation.selections =
      Resolved.reachedFragments operation'.selections :=
    hoperation.selections.reachAll_eq (List.Subset.refl _)
  have htext : requestText linked'.options = requestText linked.options := by
    rw [h.texts]
    rfl
  simp only [operationModel, ← hoperation.operation, ← hoperation.onType, ← hoperation.filePath,
    ← h.schema, ← h.library, htext, ← hreached]
  split
  · exact .refl _
  · split
    · exact .refl _
    · refine .bind (.refl _) fun vars => .bind ?_ fun data => .refl _
      exact Builder.dataField_sameUnlessCut ⟨[], hoperation.selections⟩ _ _

/-! ## Builds -/

theorem Continued.models_sameUnlessCut (h : linked.Continued linked') :
    linked.models.SameUnlessCut linked'.models := by
  have horder := h.buildOrder_eq
  rw [bodies, bodies] at horder
  simp only [models, ← horder]
  refine .bind (.refl _) fun order => ?_
  refine .bind (h.fragmentModels_sameUnlessCut [] order) fun built => ?_
  refine .bind (.each (h.operations.imp fun operation operation' hoperation => ?_)) fun _ => .refl _
  exact h.operationModel_sameUnlessCut hoperation built

/-- **More rounds change no build that is not cut off**, neither its outcome nor its trace. -/
theorem Continued.build_eq (h : linked.Continued linked') {config : Config}
    (hcut : (linked.build config).isCutOff = false) :
    linked'.build config = linked.build config := by
  have hmodels : linked.models = linked'.models := by
    refine h.models_sameUnlessCut.resolve_left fun hmodels => ?_
    have hbuild : (linked.build config).isCutOff = true := Traced.isCutOff_bind _ hmodels
    rw [hcut] at hbuild
    cases hbuild
  simp only [build, ← hmodels, ← h.schema, filterMap_lookup_eq h.fragments,
    map_filter_own_eq h.fragments]

end Linked

/-! ## Adding rounds -/

namespace Model

variable {options : Options} {schema : Schema} {config : Config}
  {documents accompanying : List Document} {limit : Nat}

/-- Adding rounds gives the build with some number of them.  It is cut off only if no more may be
added. -/
theorem exists_build_of_ofDocuments {outcome : Traced Model}
    (h : ofDocuments schema config documents accompanying limit options = .ok outcome) :
    ∃ rounds linked, options.rounds ≤ rounds ∧ rounds ≤ options.rounds + limit ∧
      Linked.ofDocuments { options with rounds } schema documents accompanying = .ok linked ∧
      outcome = linked.build config ∧
      (outcome.isCutOff = true → rounds = options.rounds + limit) := by
  induction limit generalizing options with
  | zero =>
      obtain ⟨linked, hlink, h⟩ := except_bind_eq_ok.1 h
      obtain rfl := Except.ok.inj h
      exact ⟨options.rounds, linked, Nat.le_refl _, Nat.le_refl _, hlink, rfl, fun _ => rfl⟩
  | succ limit ih =>
      obtain ⟨linked, hlink, h⟩ := except_bind_eq_ok.1 h
      split at h
      · obtain ⟨rounds, linked', hle, hlimit, hlink', houtcome, hcut⟩ := ih h
        simp only [Options.further] at hle hlimit hlink' hcut
        refine ⟨rounds, linked', by omega, by omega, hlink', houtcome, fun hoff => ?_⟩
        have hrounds := hcut hoff
        omega
      · next hnot =>
          obtain rfl := Except.ok.inj h
          exact ⟨options.rounds, linked, Nat.le_refl _, Nat.le_add_right _ _, hlink, rfl,
            fun hcut => absurd hcut hnot⟩

/-- **The outcome does not depend on the rounds.**  Adding rounds gives the build with any number of
them that is not cut off, if as many may be added. -/
theorem ofDocuments_eq_build {linked : Linked} {rounds : Nat}
    (hle : options.rounds ≤ rounds) (hlimit : rounds ≤ options.rounds + limit)
    (hlink : Linked.ofDocuments { options with rounds } schema documents accompanying = .ok linked)
    (hcut : (linked.build config).isCutOff = false) :
    ofDocuments schema config documents accompanying limit options =
      .ok (linked.build config) := by
  induction limit generalizing options with
  | zero =>
      obtain rfl : options.rounds = rounds := by omega
      rw [ofDocuments, hlink]
      rfl
  | succ limit ih =>
      obtain ⟨first, hfirst⟩ := Linked.exists_ofDocuments_rounds hlink options.rounds
      have hcontinued : first.Continued linked := Linked.continued hle hfirst hlink
      rw [ofDocuments, hfirst]
      cases hfirstCut : (first.build config).isCutOff with
      | false => simp [bind, Except.bind, hfirstCut, hcontinued.build_eq hfirstCut]
      | true =>
          -- the build with the given rounds is not cut off, so it takes more than the first ones
          have hne : options.rounds ≠ rounds := by
            rintro rfl
            obtain rfl : first = linked := Except.ok.inj (hfirst.symm.trans hlink)
            rw [hcut] at hfirstCut
            cases hfirstCut
          have hlimit' : rounds ≤ options.further.rounds + limit := by
            simp only [Options.further]
            omega
          have hrest : ofDocuments schema config documents accompanying limit options.further =
              .ok (linked.build config) := ih (Nat.lt_of_le_of_ne hle hne) hlimit' hlink
          simp [bind, Except.bind, hfirstCut, hrest]

end Model

end ResponseModel
