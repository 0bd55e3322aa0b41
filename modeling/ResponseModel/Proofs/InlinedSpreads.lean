import ResponseModel.Proofs.Resolution
import ResponseModel.Proofs.Rewriting

/-!
# Spreads and inline fragments

A spread selects what an inline fragment on the type of the fragment selects, with the directives of
the spread.  `Library.Inlined` says what it means to replace every spread of a selection set by such
an inline fragment, at every depth and in the selections of the fragments themselves.  Main
statement: `skeleton_dataField_inlined`, the tree that is built from the inlined selections differs
from the one built from the selections with spreads in the marks of refinement only.
-/

namespace ResponseModel

/-! ## Inlining resolved selections -/

namespace Resolved

mutual

/-- The selection with an inline fragment in the place of every spread. -/
def inlined : Resolved → Resolved
  | .field parent node definition selections =>
      .field parent node definition (inlinedAll selections)
  | .inline condition type directives selections =>
      .inline condition type directives (inlinedAll selections)
  | .spread _ directives type selections =>
      .inline (some type) type directives (inlinedAll selections)
  | .dangling name directives reason => .dangling name directives reason

/-- The selections with inline fragments in the place of spreads. -/
def inlinedAll : List Resolved → List Resolved
  | [] => []
  | selection :: rest => inlined selection :: inlinedAll rest

end

theorem depthAll_inlinedAll (selections : List Resolved) :
    depthAll (inlinedAll selections) = depthAll selections := by
  induction selections using forest_induction with
  | nil => rfl
  | field parent node definition selections rest ihbelow ihrest =>
      simp only [inlinedAll, inlined, depthAll, depth, ihbelow, ihrest]
  | inline condition type directives selections rest ihbelow ihrest =>
      simp only [inlinedAll, inlined, depthAll, depth, ihbelow, ihrest]
  | spread name directives type selections rest ihbelow ihrest =>
      simp only [inlinedAll, inlined, depthAll, depth, ihbelow, ihrest]
  | dangling name directives reason rest ihrest =>
      simp only [inlinedAll, inlined, depthAll, depth, ihrest]

/-- An inline fragment brings in the type condition that the spread brought in. -/
theorem typeConditionsAll_inlinedAll (selections : List Resolved) :
    typeConditionsAll (inlinedAll selections) = typeConditionsAll selections := by
  induction selections using forest_induction with
  | nil => rfl
  | field parent node definition selections rest _ ihrest =>
      simp only [inlinedAll, inlined, typeConditionsAll, typeConditions, ihrest]
  | inline condition type directives selections rest ihbelow ihrest =>
      simp only [inlinedAll, inlined, typeConditionsAll, typeConditions, ihbelow, ihrest]
  | spread name directives type selections rest ihbelow ihrest =>
      simp only [inlinedAll, inlined, typeConditionsAll, typeConditions, ihbelow, ihrest,
        Option.toList_some, List.singleton_append]
  | dangling name directives reason rest ihrest =>
      simp only [inlinedAll, inlined, typeConditionsAll, typeConditions, ihrest]

end Resolved

/-! ## Building from inlined selections -/

/-- How a selection is called matters for errors only. -/
theorem Condition.agree_ofDirectives (directives : List Directive) (selection selection' : String) :
    Agree False (· = ·) (ofDirectives directives selection)
      (ofDirectives directives selection') := by
  have hread : ∀ seen, Agree False (· = ·) (readDirectives selection seen directives)
      (readDirectives selection' seen directives) := by
    induction directives with
    | nil => exact fun _ => rfl
    | cons directive rest ih =>
        intro seen
        unfold readDirectives
        split
        · split
          · exact False.elim
          · split
            · refine (Agree.refl _).bind ?_
              rintro own _ ⟨rfl, -⟩
              refine (ih _).bind ?_
              rintro others _ rfl
              exact rfl
            · exact False.elim
        · exact ih seen
  refine (hread []).map ?_
  rintro conditions _ rfl
  exact rfl

namespace Resolved

/-- Inlined selections have the same occurrences. -/
theorem agree_flattenAll_inlinedAll (applies : Name → Bool) (condition : Condition)
    (selections : List Resolved) :
    Agree False (Flat.Like False fun part part' => part' = inlinedAll part)
      (flattenAll applies condition selections)
      (flattenAll applies condition (inlinedAll selections)) := by
  induction selections using forest_induction generalizing condition with
  | nil => exact Flat.Like.nil
  | field parent node definition selections rest _ ihrest =>
      refine Agree.append ?_ (ihrest condition)
      refine (Agree.refl _).bind ?_
      rintro own _ ⟨rfl, -⟩
      exact ⟨.cons ⟨rfl, rfl, rfl, rfl, rfl⟩ .nil, False.elim⟩
  | inline written type directives selections rest ihbelow ihrest =>
      refine Agree.append ?_ (ihrest condition)
      rw [inlined, flatten, flatten]
      split
      · refine (Agree.refl _).bind ?_
        rintro own _ ⟨rfl, -⟩
        exact ihbelow _
      · exact Flat.Like.nil
  | spread name directives type selections rest ihbelow ihrest =>
      refine Agree.append ?_ (ihrest condition)
      rw [inlined, flatten, flatten]
      split
      · refine (Condition.agree_ofDirectives directives _ _).bind ?_
        rintro own _ rfl
        refine (ihbelow _).andThen_ok fun pieces pieces' hpieces => ?_
        exact ⟨hpieces.occurrences, False.elim⟩
      · exact Flat.Like.nil
  | dangling name directives reason rest ihrest => exact Agree.append (fun _ => rfl) (ihrest _)

end Resolved

theorem rewriting_inlinedAll (schema : Schema) :
    Rewriting False schema (fun part part' => part' = Resolved.inlinedAll part)
      (fun _ _ => True) where
  typeConditions := by
    rintro selections _ rfl
    rw [Resolved.typeConditionsAll_inlinedAll]
    exact (Agree.refl _).imp fun _ _ _ hsame => hsame.1
  flatten := by
    rintro fieldType branches applies branch _ - - - rfl
    exact Resolved.agree_flattenAll_inlinedAll applies branch.2 branch.1
  below _ _ _ _ _ _ := trivial

/-! ## Inlining written selections -/

namespace Library

/-- `library.Inlined written inlined`: putting the fragments of the library in the place of all
spreads in `written` gives `inlined`. -/
inductive Inlined (library : Library) : List Selection → List Selection → Prop
  | nil : Inlined library [] []
  | field {node : FieldNode} {selections rest below others : List Selection} :
      Inlined library selections below → Inlined library rest others →
      Inlined library (.field node selections :: rest) (.field node below :: others)
  | inline {condition : Option Name} {directives : List Directive}
      {selections rest below others : List Selection} :
      Inlined library selections below → Inlined library rest others →
      Inlined library (.inline condition directives selections :: rest)
        (.inline condition directives below :: others)
  | spread {name : Name} {directives : List Directive} {entry : Entry}
      {rest below others : List Selection} :
      library.entry? name = some entry → Inlined library entry.fragment.selections below →
      Inlined library rest others →
      Inlined library (.spread name directives :: rest)
        (.inline (some entry.fragment.onType) directives below :: others)

/-- Every spread in the selections names a fragment of the library. -/
def Defines (library : Library) (selections : List Selection) : Prop :=
  ∀ name ∈ Selection.spreadsAll selections, (library.entry? name).isSome = true

variable {library : Library} {schema : Schema}

/-- Inlining has one result. -/
theorem Inlined.unique {written inlined inlined' : List Selection}
    (h : library.Inlined written inlined) (h' : library.Inlined written inlined') :
    inlined = inlined' := by
  induction h generalizing inlined' with
  | nil =>
      cases h'
      rfl
  | field _ _ ihbelow ihrest =>
      cases h' with
      | field hbelow' hrest' => rw [ihbelow hbelow', ihrest hrest']
  | inline _ _ ihbelow ihrest =>
      cases h' with
      | inline hbelow' hrest' => rw [ihbelow hbelow', ihrest hrest']
  | spread hentry _ _ ihbelow ihrest =>
      cases h' with
      | spread hentry' hbelow' hrest' =>
          obtain rfl := Option.some.inj (hentry.symm.trans hentry')
          rw [ihbelow hbelow', ihrest hrest']

/-- Selections without undefined spreads can be inlined, and what they are inlined to is resolved
without the library: to the selections themselves, inlined. -/
theorem Resolution.exists_inlined
    (hfragments : ∀ entry ∈ library.entries, library.Defines entry.2.fragment.selections)
    {parent : Name} {written : List Selection} {resolved : List Resolved}
    (h : library.Resolution schema parent written resolved) (hdefines : library.Defines written) :
    ∃ inlined, library.Inlined written inlined ∧ ∀ target,
      Selection.resolveAll schema target parent inlined = .ok (Resolved.inlinedAll resolved) := by
  induction h with
  | nil => exact ⟨[], .nil, fun _ => rfl⟩
  | field hdefinition _ _ ihbelow ihrest =>
      obtain ⟨below, hbelow, hresolveBelow⟩ :=
        ihbelow fun name hname => hdefines name (List.mem_append_left _ hname)
      obtain ⟨others, hothers, hresolveOthers⟩ :=
        ihrest fun name hname => hdefines name (List.mem_append_right _ hname)
      refine ⟨_, .field hbelow hothers, fun target => ?_⟩
      simp only [Selection.resolveAll, Selection.resolve, hdefinition, hresolveBelow,
        hresolveOthers]
      rfl
  | inline _ _ ihbelow ihrest =>
      obtain ⟨below, hbelow, hresolveBelow⟩ :=
        ihbelow fun name hname => hdefines name (List.mem_append_left _ hname)
      obtain ⟨others, hothers, hresolveOthers⟩ :=
        ihrest fun name hname => hdefines name (List.mem_append_right _ hname)
      refine ⟨_, .inline hbelow hothers, fun target => ?_⟩
      simp only [Selection.resolveAll, Selection.resolve, hresolveBelow, hresolveOthers]
      rfl
  | spread hentry _ _ ihbelow ihrest =>
      obtain ⟨below, hbelow, hresolveBelow⟩ :=
        ihbelow (hfragments _ (mem_of_lookup_eq_some hentry))
      obtain ⟨others, hothers, hresolveOthers⟩ :=
        ihrest fun name hname => hdefines name (List.mem_append_right _ hname)
      refine ⟨_, .spread hentry hbelow hothers, fun target => ?_⟩
      simp only [Selection.resolveAll, Selection.resolve, Option.getD_some, hresolveBelow,
        hresolveOthers]
      rfl
  | @undefined _ name _ _ _ hnone _ _ =>
      have hsome := hdefines name (List.mem_append_left _ (List.mem_singleton_self name))
      rw [hnone] at hsome
      exact absurd hsome Bool.false_ne_true

end Library

/-- **Spreads can be inlined.**  Take a library whose fragments do not spread themselves and spread
only fragments of the library, and any selections on a type with spreads of these fragments.  There
is one way to put inline fragments in the place of all spreads, at every depth.  A tree is built
from the inlined selections exactly if one is built from the selections with spreads, and the two
trees have the same skeleton: they are equal but for the shapes that their shapes refine and the
fields that are marked as overriding, whatever the fragments that were built before. -/
theorem skeleton_dataField_inlined {library : Library} {schema : Schema} {rounds : Nat}
    {type : Name} {written : List Selection} {resolved : List Resolved}
    (hacyclic : library.Acyclic)
    (hfragments : ∀ entry ∈ library.entries, library.Defines entry.2.fragment.selections)
    (hdefines : library.Defines written)
    (hresolve : library.resolve schema rounds type written = .ok resolved) :
    ∃ inlined resolved', (∀ other, library.Inlined written other ↔ other = inlined) ∧
      (∀ (other : Library) (rounds' : Nat),
        other.resolve schema rounds' type inlined = .ok resolved') ∧
      ∀ builder builder' : Builder, builder.schema = schema → builder'.schema = schema →
        ∀ root,
          (builder.dataField type resolved root).result.toOption.map Field.skeleton =
            (builder'.dataField type resolved' root).result.toOption.map Field.skeleton := by
  obtain ⟨inlined, hinlined, hresolve'⟩ :=
    (Library.resolution_of_resolve hacyclic hresolve).exists_inlined hfragments hdefines
  refine ⟨inlined, _,
    fun other => ⟨fun hother => hother.unique hinlined, fun heq => heq ▸ hinlined⟩,
    fun other _ => hresolve' _, ?_⟩
  intro builder builder' hschema hschema' root
  have hagree : Agree False (Field.Like False) (builder.dataField type resolved root).result
      (builder'.dataField type (Resolved.inlinedAll resolved) root).result :=
    (rewriting_inlinedAll builder.schema).agree_dataField (hschema.trans hschema'.symm) False.elim
      rfl trivial (Resolved.depthAll_inlinedAll resolved).symm root
  exact hagree.toOption_map_eq fun _ _ hlike => hlike.1

namespace Sample

/-- The sample fragment, and one that spreads it on a condition. -/
def nested : Library :=
  let facts : Fragment :=
    ⟨"PetFacts", "Pet", [],
      [select "name" [] [], .spread "CatMate" [⟨"include", [("if", .var "brief")]⟩]]⟩
  Library.ofDocuments [{ document with fragments := facts :: document.fragments }] []

/-- Selections with a spread below a field and below an inline fragment. -/
def spreading : List Selection :=
  [select "pet" []
    [.spread "PetFacts" [],
      .inline (some "Noisy") [] [.spread "CatMate" [], select "volume" [] []]]]

theorem spreading_resolves :
    (nested.resolve schema 0 "Query" spreading).toOption.isSome = true := by decide +kernel

end Sample

theorem skeleton_dataField_inlined_pet :
    Sample.nested.Acyclic ∧
    (∀ entry ∈ Sample.nested.entries, Sample.nested.Defines entry.2.fragment.selections) ∧
    Sample.nested.Defines Sample.spreading ∧
    ∃ resolved, Sample.nested.resolve Sample.schema 0 "Query" Sample.spreading = .ok resolved ∧
      ((Builder.mk Sample.schema []).dataField "Query" resolved
        (.atRoot "Pets" .operationImplementation)).result.toOption.isSome = true ∧
      ∃ inlined resolved',
        (∀ other, Sample.nested.Inlined Sample.spreading other ↔ other = inlined) ∧
        (∀ (other : Library) (rounds' : Nat),
          other.resolve Sample.schema rounds' "Query" inlined = .ok resolved') ∧
        ∀ builder builder' : Builder, builder.schema = Sample.schema →
          builder'.schema = Sample.schema → ∀ root,
            (builder.dataField "Query" resolved root).result.toOption.map Field.skeleton =
              (builder'.dataField "Query" resolved' root).result.toOption.map Field.skeleton := by
  have hacyclic : Sample.nested.Acyclic :=
    Library.acyclic_of_rank (fun name => if name = "PetFacts" then 1 else 0) (by decide +kernel)
  have hfragments : ∀ entry ∈ Sample.nested.entries,
      Sample.nested.Defines entry.2.fragment.selections := by
    unfold Library.Defines
    decide +kernel
  have hdefines : Sample.nested.Defines Sample.spreading := by
    unfold Library.Defines
    decide +kernel
  have hresolve := except_eq_ok_get Sample.spreading_resolves
  exact ⟨hacyclic, hfragments, hdefines, _, hresolve, by decide +kernel,
    skeleton_dataField_inlined hacyclic hfragments hdefines hresolve⟩

end ResponseModel
