import ResponseModel.Proofs.Conditions
import ResponseModel.Proofs.Inclusion
import ResponseModel.Proofs.Models

/-!
# Conditions below a field

The condition of a field merges the conditions of all its occurrences, and so does the condition of
every field below it; both are weakened on the way, each by itself.  Still a field that is present
has everything around it present: main statement `holds_condition_of_holds_below`.

An occurrence below is under the condition of one of the occurrences above and has further terms
(`Condition.Strengthens`).  What holds of the branches one by one passes to the merged conditions
because these keep every term that all branches share (`holds_any_iff`), so that fewer branches, or
branches with more terms, merge to a condition with more terms (`holds_any_of_strengthens`).
-/

namespace ResponseModel

/-! ## More terms -/

namespace Condition

variable {values : Name → Bool}

/-- Every term of the second condition is a term of the first, unless the first never holds. -/
def Strengthens (stronger weaker : Condition) : Prop :=
  ∀ terms, stronger.terms? = some terms → ∃ fewer, weaker.terms? = some fewer ∧ fewer ⊆ terms

theorem Strengthens.trans {first second third : Condition} (h : first.Strengthens second)
    (h' : second.Strengthens third) : first.Strengthens third := by
  intro terms hterms
  obtain ⟨fewer, hfewer, hsub⟩ := h terms hterms
  obtain ⟨fewest, hfewest, hsub'⟩ := h' fewer hfewer
  exact ⟨fewest, hfewest, List.Subset.trans hsub' hsub⟩

theorem subset_insertTerm? {term : Term} {terms sorted : List Term}
    (h : insertTerm? term terms = some sorted) : term :: terms ⊆ sorted := by
  induction terms generalizing sorted with
  | nil =>
      obtain rfl := Option.some.inj h
      exact List.Subset.refl _
  | cons first rest ih =>
      unfold insertTerm? at h
      split_ifs at h with hlt hname hsign
      · obtain rfl := Option.some.inj h
        exact List.Subset.refl _
      · obtain rfl := Option.some.inj h
        -- the same variable with the same sign is the same term
        have hterm : term = first := by
          cases term; cases first; simp_all
        simp [hterm]
      · obtain ⟨inner, hinner, rfl⟩ := Option.map_eq_some_iff.1 h
        have hsub := List.cons_subset.1 (ih hinner)
        simp only [List.cons_subset, List.mem_cons, true_or, true_and]
        exact ⟨.inr hsub.1, List.subset_cons_of_subset _ hsub.2⟩

theorem subset_insertTerms? {terms sorted result : List Term}
    (h : insertTerms? terms sorted = some result) : terms ⊆ result ∧ sorted ⊆ result := by
  induction terms generalizing result with
  | nil =>
      obtain rfl := Option.some.inj h
      exact ⟨List.nil_subset _, List.Subset.refl _⟩
  | cons term rest ih =>
      obtain ⟨inner, hinner, h⟩ := Option.bind_eq_some_iff.1 h
      obtain ⟨hterm, hsub⟩ := List.cons_subset.1 (subset_insertTerm? h)
      obtain ⟨hrest, hsorted⟩ := ih hinner
      exact ⟨List.cons_subset.2 ⟨hterm, List.Subset.trans hrest hsub⟩,
        List.Subset.trans hsorted hsub⟩

/-- Gathering keeps the terms of every condition. -/
theorem exists_subset_gather? {conditions : List Condition} {terms : List Term}
    (h : gather? conditions = some terms) {condition : Condition}
    (hmem : condition ∈ conditions) : ∃ own, condition.terms? = some own ∧ own ⊆ terms := by
  induction conditions generalizing terms with
  | nil => exact absurd hmem List.not_mem_nil
  | cons first rest ih =>
      obtain ⟨sorted, hsorted, h⟩ := Option.bind_eq_some_iff.1 h
      obtain ⟨own, hown, h⟩ := Option.bind_eq_some_iff.1 h
      obtain ⟨hsub, hrest⟩ := subset_insertTerms? h
      rcases List.mem_cons.1 hmem with rfl | hmem
      · exact ⟨own, hown, hsub⟩
      · obtain ⟨other, hother, hsub⟩ := ih hsorted hmem
        exact ⟨other, hother, List.Subset.trans hsub hrest⟩

theorem terms?_all (conditions : List Condition) :
    (all conditions).terms? = gather? conditions := by
  unfold all
  cases gather? conditions with
  | none => rfl
  | some terms => exact terms?_ofTerms terms

/-- A conjunction has the terms of its first member. -/
theorem strengthens_and (left right : Condition) : (left.and right).Strengthens left := by
  intro terms hterms
  rw [and, terms?_all] at hterms
  exact exists_subset_gather? hterms List.mem_cons_self

/-! ## Merged conditions -/

/-- The term is a term of every branch that can hold. -/
def Shared (branches : List Condition) (term : Term) : Prop :=
  ∀ branch ∈ branches, ∀ terms, branch.terms? = some terms → term ∈ terms

theorem shared_iff {branches : List Condition} {term : Term} :
    Shared branches term ↔ ∀ terms ∈ branches.filterMap terms?, term ∈ terms := by
  simp only [Shared, List.mem_filterMap]
  constructor
  · rintro h terms ⟨branch, hbranch, hterms⟩
    exact h branch hbranch terms hterms
  · intro h branch hbranch terms hterms
    exact h terms ⟨branch, hbranch, hterms⟩

/-- Merged branches hold exactly if one of them can hold and all terms that they share do. -/
theorem holds_any_iff {branches : List Condition} : (any branches).holds values = true ↔
    (∃ branch ∈ branches, branch.terms?.isSome = true) ∧
      ∀ term, Shared branches term → term.holds values = true := by
  have hsome : (∃ branch ∈ branches, branch.terms?.isSome = true) ↔
      branches.filterMap terms? ≠ [] := by
    simp [List.filterMap_eq_nil_iff, Option.isSome_iff_ne_none]
  rw [hsome]
  simp only [shared_iff]
  unfold any
  cases branches.filterMap terms? with
  | nil => simp [holds]
  | cons first others =>
      have hkept : ∀ term, term ∈ first.filter (fun term => others.all (term ∈ ·)) ↔
          ∀ terms ∈ first :: others, term ∈ terms := by simp
      simp only [holds_all, List.all_eq_true]
      constructor
      · intro h
        refine ⟨List.cons_ne_nil first others, fun term hterm => ?_⟩
        exact h (.one term) (List.mem_map_of_mem ((hkept term).2 hterm))
      · rintro ⟨-, h⟩ condition hcondition
        obtain ⟨term, hterm, rfl⟩ := List.mem_map.1 hcondition
        exact h term ((hkept term).1 hterm)

/-- If every branch strengthens one of the others, then merging keeps that. -/
theorem holds_any_of_strengthens {branches weaker : List Condition}
    (h : ∀ branch ∈ branches, ∃ other ∈ weaker, branch.Strengthens other)
    (hholds : (any branches).holds values = true) : (any weaker).holds values = true := by
  rw [holds_any_iff] at hholds ⊢
  obtain ⟨⟨branch, hbranch, hsome⟩, hshared⟩ := hholds
  obtain ⟨terms, hterms⟩ := Option.isSome_iff_exists.1 hsome
  constructor
  · obtain ⟨other, hother, hstrengthens⟩ := h branch hbranch
    obtain ⟨fewer, hfewer, -⟩ := hstrengthens terms hterms
    exact ⟨other, hother, Option.isSome_iff_exists.2 ⟨fewer, hfewer⟩⟩
  · -- what the weaker branches share is shared by the stronger ones, too
    intro term hterm
    refine hshared term fun branch hbranch terms hterms => ?_
    obtain ⟨other, hother, hstrengthens⟩ := h branch hbranch
    obtain ⟨fewer, hfewer, hsub⟩ := hstrengthens terms hterms
    exact hsub (hterm other hother fewer hfewer)

end Condition

/-! ## Collected conditions -/

/-- The conditions on the way to an occurrence add terms to the one that it starts under. -/
theorem Resolved.strengthens_of_mem_flattenAll {applies : Name → Bool} {condition : Condition}
    {selections : List Resolved} {pieces : List Flat}
    (h : flattenAll applies condition selections = .ok pieces) :
    ∀ o ∈ Flat.occurrences pieces, o.condition.Strengthens condition := by
  refine forall_mem_flattenAll_under (P := fun condition _ o => o.condition.Strengthens condition)
    ?_ ?_ ?_ ?_ h
  · intro condition own _ _ _ _ _ _
    exact condition.strengthens_and own
  · intro condition own _ _ _ _ _ o _ ih
    exact ih.trans (condition.strengthens_and own)
  · intro condition own _ _ _ _ _ o _ ih
    exact ih.trans (condition.strengthens_and own)
  · intro condition _ _ o ih
    exact ih

/-- An occurrence that is collected strengthens the condition of a selection set. -/
theorem exists_strengthens_of_collect {applies : Name → Bool} {branches : List Branch}
    {collected : Collected} (h : collect applies branches = .ok collected)
    {entry : Name × Merged} (hentry : entry ∈ collected.fields) :
    ∀ condition ∈ entry.2.occurrences.map Occurrence.condition,
      ∃ other ∈ branches.map Prod.snd, condition.Strengthens other := by
  intro condition hcondition
  obtain ⟨o, ho, rfl⟩ := List.mem_map.1 hcondition
  obtain ⟨branch, hbranch, pieces, hpieces, hmem⟩ := exists_flattenAll_of_collect h hentry ho
  exact ⟨branch.2, List.mem_map_of_mem hbranch,
    Resolved.strengthens_of_mem_flattenAll hpieces o hmem⟩

/-! ## Conditions in a tree -/

namespace Builder

variable {builder : Builder} {request : Request}

/-- The shapes of the field were built from selection sets whose conditions merge to the condition
of the field. -/
structure Guards (builder : Builder) (request : Request) (field : Field) : Prop where
  fills : builder.Fills request field
  condition : field.condition = Condition.any (request.branches.map Prod.snd)

/-- One step down a tree: the condition of a field of a shape implies that of the field around the
shape, and the shapes below were built in the same way. -/
theorem Guards.sub {field sub : Field} {shape : Shape} (h : builder.Guards request field)
    (hshape : shape ∈ field.shapes) (hsub : sub ∈ shape.fields) :
    (sub.shapes = [] ∨ ∃ below, builder.Guards below sub) ∧
      ∀ values, sub.condition.holds values = true → field.condition.holds values = true := by
  obtain ⟨conditions, hlevel⟩ := h.fills.built.level
  obtain ⟨earlier, later, collected, -, hshapeFrom⟩ := hlevel.exists_shapeFrom hshape
  obtain ⟨entry, hentry, hname, hfrom⟩ := hshapeFrom.exists_entry hsub
  constructor
  · cases hcomposite : sub.type.leaf.isComposite with
    | false => exact .inl (hfrom.leaf hcomposite)
    | true =>
        refine .inr ⟨_, hfrom.fills hname hcomposite, ?_⟩
        rw [hfrom.condition, requestBelow, List.map_map]
        rfl
  · intro values hholds
    rw [hfrom.condition] at hholds
    rw [h.condition]
    exact Condition.holds_any_of_strengthens
      (exists_strengthens_of_collect hshapeFrom.collects hentry) hholds

theorem DataFieldFrom.guards {type : Name} {selections : List Resolved} {root : Path}
    {data : Field} (h : builder.DataFieldFrom type selections root data) :
    builder.Guards (rootRequest type selections root) data :=
  ⟨h.fills, h.condition⟩

/-- The steps down from the top of a tree. -/
theorem DataFieldFrom.exists_guards {type : Name} {selections : List Resolved} {root : Path}
    {data : Field} (h : builder.DataFieldFrom type selections root data) :
    ∀ field ∈ data.all, field.shapes = [] ∨ ∃ request, builder.Guards request field := by
  refine Field.forall_mem_all (.inr ⟨_, h.guards⟩) ?_
  rintro field (hnone | ⟨request, hguards⟩) shape hshape sub hsub
  · rw [hnone] at hshape
    exact absurd hshape List.not_mem_nil
  · exact (hguards.sub hshape hsub).1

end Builder

/-- **Conditions get stronger on the way down.**  In a model of any documents, take any field of the
tree of an operation or a fragment and any field of one of its shapes.  Whatever the values of the
variables, if the condition of the field below holds, then so does that of the field above. -/
theorem holds_condition_of_holds_below {options : Options} {schema : Schema}
    {documents accompanying : List Document}
    {linked : Linked} {config : Config} {model : Model}
    (hlink : Linked.ofDocuments options schema documents accompanying = .ok linked)
    (hbuild : (linked.build config).result = .ok model) :
    ∀ data ∈ model.dataFields, ∀ field ∈ data.all, ∀ shape ∈ field.shapes, ∀ sub ∈ shape.fields,
      ∀ values, sub.condition.holds values = true → field.condition.holds values = true := by
  intro data hdata field hfield shape hshape sub hsub
  obtain ⟨selections, htop⟩ := Linked.exists_isTop hlink hbuild hdata
  obtain ⟨builder, -, type, root, hfrom⟩ := htop.dataFieldFrom hlink hbuild
  rcases hfrom.exists_guards field hfield with hnone | ⟨request, hguards⟩
  · rw [hnone] at hshape
    exact absurd hshape List.not_mem_nil
  · exact (hguards.sub hshape hsub).2

/-! ## Guarded pets

The pet is selected twice under different conditions, and below it the name of a cat is selected
once more. -/

namespace Guarded

open Sample (schema select)

/-- The directive that asks for a variable. -/
def onlyIf (var : Name) : Directive := ⟨"include", [("if", .var var)]⟩

def document : Document where
  path := none
  operations :=
    [{ kind := .query
       name := some "Guarded"
       vars := ["pets", "brief", "named", "cats"].map fun name =>
         ⟨name, .named "Boolean" true, none, []⟩
       directives := []
       selections :=
         [select "pet" [onlyIf "pets", ⟨"skip", [("if", .var "brief")]⟩]
             [select "name" [onlyIf "named"] []],
           select "pet" [onlyIf "pets"]
             [.inline (some "Cat") [onlyIf "cats"] [select "name" [] []],
               select "mate" [] [select "name" [onlyIf "named"] []]]] }]
  fragments := []

end Guarded

theorem holds_condition_of_holds_below_guarded : ∃ linked model,
    Linked.ofDocuments .standard Sample.schema [Guarded.document] [] = .ok linked ∧
    (linked.build ⟨[]⟩).result = .ok model ∧
    model.dataFields.map (fun data => data.all.map (·.condition.text)) =
      [["true", "$pets", "!$brief && $named && $pets", "$pets", "$named && $pets", "$pets",
        "$pets", "$named && $pets"]] ∧
    ∀ data ∈ model.dataFields, ∀ field ∈ data.all, ∀ shape ∈ field.shapes,
      ∀ sub ∈ shape.fields, ∀ values, sub.condition.holds values = true →
        field.condition.holds values = true := by
  obtain ⟨linked, model, hlink, hbuild, htexts⟩ :
      ∃ linked model,
        Linked.ofDocuments .standard Sample.schema [Guarded.document] [] = .ok linked ∧
        (linked.build ⟨[]⟩).result = .ok model ∧
        model.dataFields.map (fun data => data.all.map (·.condition.text)) =
          [["true", "$pets", "!$brief && $named && $pets", "$pets", "$named && $pets", "$pets",
            "$pets", "$named && $pets"]] := Linked.exists_of_built? (by decide +kernel)
  exact ⟨linked, model, hlink, hbuild, htexts, holds_condition_of_holds_below hlink hbuild⟩

end ResponseModel
