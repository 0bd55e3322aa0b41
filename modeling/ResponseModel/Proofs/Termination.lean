import Mathlib.Order.WellFoundedSet
import ResponseModel.Proofs.InlinedSpreads
import ResponseModel.Proofs.Recursion

/-!
# Building terminates

Whoever walks through selections goes from a selection set to those below its fields, in its inline
fragments and in the fragments that it spreads (`Library.Leads`).  Where no fragment spreads itself,
no such walk goes on forever (`Acyclic.wellFounded_leads`): the fragments are finitely many, and
within one of them selections get smaller.  So the selections with all spreads inlined are nested to
some depth (`Library.Nests`), which bounds the levels of a build and the paths of its shapes.  Main
statement: `dataField_terminates`.
-/

namespace ResponseModel

namespace Library

variable {library : Library} {selections rest inner : List Selection}

/-! ## Walks through selections -/

theorem Spreads.mem_names {name other : Name} (h : library.Spreads name other) :
    name ∈ library.entries.map Prod.fst := by
  obtain ⟨entry, hentry, -⟩ := h
  exact List.mem_map_of_mem (mem_of_lookup_eq_some hentry)

/-- Fragments that do not spread themselves lead to each other in finitely many steps only. -/
theorem Acyclic.wellFounded_spreads (h : library.Acyclic) :
    WellFounded fun other name => library.Spreads name other := by
  have horder : IsStrictOrder Name fun other name => Relation.TransGen library.Spreads name other :=
    { irrefl := h, trans := fun _ _ _ hab hbc => hbc.trans hab }
  have hfinite : {name | name ∈ library.entries.map Prod.fst}.Finite := List.finite_toSet _
  have hnames := Set.wellFoundedOn_iff.1
    (hfinite.wellFoundedOn (r := fun other name => Relation.TransGen library.Spreads name other))
  refine ⟨fun name => ?_⟩
  induction name using hnames.induction with
  | _ name ih =>
      constructor
      intro other hstep
      by_cases hother : other ∈ library.entries.map Prod.fst
      · exact ih other ⟨.single hstep, hother, hstep.mem_names⟩
      · -- a name without a definition leads nowhere
        exact ⟨other, fun _ hnext => absurd hnext.mem_names hother⟩

/-- From a selection set to one that stands below a field of it, in an inline fragment of it, or in
a fragment that it spreads. -/
inductive Leads (library : Library) (outer : List Selection) : List Selection → Prop
  | field {node : FieldNode} {inner : List Selection} :
      .field node inner ∈ outer → Leads library outer inner
  | inline {condition : Option Name} {directives : List Directive} {inner : List Selection} :
      .inline condition directives inner ∈ outer → Leads library outer inner
  | spread {name : Name} {directives : List Directive} {entry : Entry} :
      .spread name directives ∈ outer → library.entry? name = some entry →
      Leads library outer entry.fragment.selections

/-- What a selection set leads to, its first selection or the rest leads to. -/
theorem Leads.of_cons {selection : Selection} (h : library.Leads (selection :: rest) inner) :
    library.Leads [selection] inner ∨ library.Leads rest inner := by
  cases h with
  | field hmem =>
      rcases List.mem_cons.1 hmem with rfl | hmem
      · exact .inl (.field List.mem_cons_self)
      · exact .inr (.field hmem)
  | inline hmem =>
      rcases List.mem_cons.1 hmem with rfl | hmem
      · exact .inl (.inline List.mem_cons_self)
      · exact .inr (.inline hmem)
  | spread hmem hentry =>
      rcases List.mem_cons.1 hmem with rfl | hmem
      · exact .inl (.spread List.mem_cons_self hentry)
      · exact .inr (.spread hmem hentry)

theorem acc_cons {selection : Selection}
    (hfirst : ∀ inner, library.Leads [selection] inner →
      Acc (fun inner outer => library.Leads outer inner) inner)
    (hrest : Acc (fun inner outer => library.Leads outer inner) rest) :
    Acc (fun inner outer => library.Leads outer inner) (selection :: rest) := by
  constructor
  intro inner hleads
  rcases hleads.of_cons with hleads | hleads
  · exact hfirst inner hleads
  · exact hrest.inv hleads

/-- Walks from a selection set end if those from the fragments that it spreads do. -/
theorem acc_of_spreads
    (h : ∀ name ∈ Selection.spreadsAll selections, ∀ entry, library.entry? name = some entry →
      Acc (fun inner outer => library.Leads outer inner) entry.fragment.selections) :
    Acc (fun inner outer => library.Leads outer inner) selections := by
  induction selections using Selection.forest_induction with
  | nil =>
      constructor
      intro inner hleads
      cases hleads with
      | field hmem => exact absurd hmem List.not_mem_nil
      | inline hmem => exact absurd hmem List.not_mem_nil
      | spread hmem _ => exact absurd hmem List.not_mem_nil
  | field node selections rest ihbelow ihrest =>
      refine acc_cons (fun inner hleads => ?_)
        (ihrest fun name hname => h name (List.mem_append_right _ hname))
      cases hleads with
      | field hmem =>
          obtain ⟨-, rfl⟩ := Selection.field.inj (List.mem_singleton.1 hmem)
          exact ihbelow fun name hname => h name (List.mem_append_left _ hname)
      | inline hmem => simp at hmem
      | spread hmem _ => simp at hmem
  | spread name directives rest ihrest =>
      refine acc_cons (fun inner hleads => ?_)
        (ihrest fun other hother => h other (List.mem_append_right _ hother))
      cases hleads with
      | field hmem => simp at hmem
      | inline hmem => simp at hmem
      | spread hmem hentry =>
          obtain ⟨rfl, -⟩ := Selection.spread.inj (List.mem_singleton.1 hmem)
          exact h _ (List.mem_append_left _ (List.mem_singleton_self _)) _ hentry
  | inline condition directives selections rest ihbelow ihrest =>
      refine acc_cons (fun inner hleads => ?_)
        (ihrest fun name hname => h name (List.mem_append_right _ hname))
      cases hleads with
      | field hmem => simp at hmem
      | inline hmem =>
          obtain ⟨-, -, rfl⟩ := Selection.inline.inj (List.mem_singleton.1 hmem)
          exact ihbelow fun name hname => h name (List.mem_append_left _ hname)
      | spread hmem _ => simp at hmem

/-- **No walk through selections goes on forever** where no fragment spreads itself. -/
theorem Acyclic.wellFounded_leads (h : library.Acyclic) :
    WellFounded fun inner outer => library.Leads outer inner := by
  have hfragments : ∀ name entry, library.entry? name = some entry →
      Acc (fun inner outer => library.Leads outer inner) entry.fragment.selections := by
    intro name
    induction name using h.wellFounded_spreads.induction with
    | _ name ih =>
        intro entry hentry
        exact acc_of_spreads fun other hother => ih other ⟨entry, hentry, hother⟩
  exact ⟨fun selections => acc_of_spreads fun name _ => hfragments name⟩

/-! ## The depth of inlined selections -/

/-- `library.Nests selections depth`: with all spreads replaced by the selections of the fragments
that they name, fields are nested `depth` deep. -/
inductive Nests (library : Library) : List Selection → Nat → Prop
  | nil : Nests library [] 0
  | field {node : FieldNode} {selections rest : List Selection} {below after : Nat} :
      Nests library selections below → Nests library rest after →
      Nests library (.field node selections :: rest) (max (below + 1) after)
  | inline {condition : Option Name} {directives : List Directive}
      {selections rest : List Selection} {below after : Nat} :
      Nests library selections below → Nests library rest after →
      Nests library (.inline condition directives selections :: rest) (max below after)
  | spread {name : Name} {directives : List Directive} {entry : Entry} {rest : List Selection}
      {below after : Nat} :
      library.entry? name = some entry → Nests library entry.fragment.selections below →
      Nests library rest after →
      Nests library (.spread name directives :: rest) (max below after)
  | undefined {name : Name} {directives : List Directive} {rest : List Selection} {after : Nat} :
      library.entry? name = none → Nests library rest after →
      Nests library (.spread name directives :: rest) after

theorem Nests.unique {depth depth' : Nat} (h : library.Nests selections depth)
    (h' : library.Nests selections depth') : depth = depth' := by
  induction h generalizing depth' with
  | nil =>
      cases h'
      rfl
  | field _ _ ihbelow ihrest =>
      cases h' with
      | field hbelow' hrest' => rw [ihbelow hbelow', ihrest hrest']
  | inline _ _ ihbelow ihrest =>
      cases h' with
      | inline hbelow' hrest' => rw [ihbelow hbelow', ihrest hrest']
  | spread hentry _ _ ihbelow ihrest =>
      cases h' with
      | spread hentry' hbelow' hrest' =>
          obtain rfl := Option.some.inj (hentry.symm.trans hentry')
          rw [ihbelow hbelow', ihrest hrest']
      | undefined hnone _ => simp [hentry] at hnone
  | undefined hnone _ ihrest =>
      cases h' with
      | spread hentry _ _ => simp [hnone] at hentry
      | undefined _ hrest' => rw [ihrest hrest']

/-- The depth of resolved selections is that of the written ones with their spreads inlined. -/
theorem Resolution.nests {schema : Schema} {parent : Name} {resolved : List Resolved}
    (h : library.Resolution schema parent selections resolved) :
    library.Nests selections (Resolved.depthAll resolved) := by
  induction h with
  | nil => exact .nil
  | field _ _ _ ihbelow ihrest => exact .field ihbelow ihrest
  | inline _ _ ihbelow ihrest => exact .inline ihbelow ihrest
  | spread hentry _ _ ihbelow ihrest => exact .spread hentry ihbelow ihrest
  | undefined hnone _ ihrest =>
      rw [Resolved.depthAll, Resolved.depth, Nat.zero_max]
      exact .undefined hnone ihrest

end Library

/-! ## Main statement -/

/-- **Building terminates within the nesting of the selections**, for every schema, however its
types refer to each other.  No walk through the selections goes on forever, all spreads in them are
replaced, and no chain of requests goes on forever either.  The recursion that builds the shapes of
a field from those of the fields below has exactly one solution, which the top of the tree is made
with; and every shape that is finished, also in a build that fails later, has a path of at most one
element more than fields are nested. -/
theorem dataField_terminates {library : Library} (hacyclic : library.Acyclic) (builder : Builder)
    {rounds : Nat} {type : Name} {written : List Selection} {resolved : List Resolved}
    (hresolve : library.resolve builder.schema rounds type written = .ok resolved)
    (fileName : String) (root : Path.Root) :
    (WellFounded fun inner outer => library.Leads outer inner) ∧
    library.Resolution builder.schema type written resolved ∧
    (WellFounded fun below request => builder.Asks request below) ∧
    (∃ build : Request → Traced (List Shape),
      (∀ other : Request → Traced (List Shape),
        (∀ request, other request = builder.level other request) ↔ other = build) ∧
      builder.dataField type resolved (.atRoot fileName root) =
        if (builder.schema.type? type).isNone then .ofDocument (.error (.unknownType type))
        else build (Builder.rootRequest type resolved (.atRoot fileName root)) >>=
          fun shapes => .ok (Builder.topField type shapes)) ∧
    ∃ depth, (∀ depth', library.Nests written depth' ↔ depth' = depth) ∧
      (∀ path possibleTypes refined, .shape path possibleTypes refined ∈
          (builder.dataField type resolved (.atRoot fileName root)).events →
        path.elements.length ≤ 1 + depth) ∧
      ∀ data, (builder.dataField type resolved (.atRoot fileName root)).result = .ok data →
        ∀ shape ∈ data.allShapes, shape.fullPath.elements.length ≤ 1 + depth := by
  have hresolution := Library.resolution_of_resolve hacyclic hresolve
  refine ⟨hacyclic.wellFounded_leads, hresolution, builder.wellFounded_asks,
    ⟨builder.complete, fun other => ?_, builder.dataField_eq type resolved _⟩,
    Resolved.depthAll resolved, fun depth' => ?_, ?_, ?_⟩
  · constructor
    · exact Builder.eq_complete_of_level
    · rintro rfl
      exact builder.complete_eq_level
  · constructor
    · intro hnests
      exact hnests.unique hresolution.nests
    · rintro rfl
      exact hresolution.nests
  · intro path possibleTypes refined hevent
    exact builder.length_le_of_mem_dataField_events hevent
  · intro data hdata shape hshape
    exact (Builder.dataFieldFrom_of_result hdata).length_fullPath_le shape hshape

/-- The mate of a pet is a pet, and one fragment spreads the other; fields are nested three deep
with both inlined. -/
theorem dataField_terminates_pet :
    Sample.nested.Acyclic ∧
    ∃ resolved data, Sample.nested.resolve Sample.schema 0 "Query" Sample.spreading = .ok resolved ∧
      ((Builder.mk Sample.schema []).dataField "Query" resolved
        (.atRoot "Pets" .operationImplementation)).result = .ok data ∧
      Sample.nested.Nests Sample.spreading 3 ∧
      ∀ shape ∈ data.allShapes, shape.fullPath.elements.length ≤ 4 := by
  have hacyclic : Sample.nested.Acyclic :=
    Library.acyclic_of_rank (fun name => if name = "PetFacts" then 1 else 0) (by decide +kernel)
  have hresolve := except_eq_ok_get Sample.spreading_resolves
  have hbuilds : ((Builder.mk Sample.schema []).dataField "Query"
      ((Sample.nested.resolve Sample.schema 0 "Query" Sample.spreading).toOption.get
        Sample.spreading_resolves)
      (.atRoot "Pets" .operationImplementation)).result.toOption.isSome = true := by
    decide +kernel
  obtain ⟨-, hresolution, -, -, depth, hnests, -, hpaths⟩ := dataField_terminates hacyclic
    (Builder.mk Sample.schema []) hresolve "Pets" .operationImplementation
  have hdepth : 3 = depth := by
    rw [← (hnests _).1 hresolution.nests]
    decide +kernel
  refine ⟨hacyclic, _, _, hresolve, except_eq_ok_get hbuilds, (hnests 3).2 hdepth, ?_⟩
  rw [← hdepth] at hpaths
  exact hpaths _ (except_eq_ok_get hbuilds)

end ResponseModel
