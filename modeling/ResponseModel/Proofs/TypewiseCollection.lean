import ResponseModel.Proofs.ConcreteShapes
import ResponseModel.Proofs.Conditions
import ResponseModel.Proofs.Resolution

/-!
# Collecting type by type

The rule by which responses are built: for a concrete type, a fragment is entered exactly if the
type is possible for its type condition.  `Typewise` states that rule on its own, level by level
along a walk of concrete types and response names.  Shapes are built without a concrete type, from
type sets; main statement: `concreteShape?_collects`, at every place of a tree the shape of a
concrete type has the fields that the rule collects for it.

Inline fragments without a type condition are left out throughout (`Document.conditioned`).
-/

namespace ResponseModel

/-! ## The rule -/

namespace Typewise

mutual

/-- The occurrences of fields that a selection gives for a concrete type. -/
def ofSelection (schema : Schema) (concrete : Name) (condition : Condition) :
    Resolved → List Occurrence
  | .field parent node definition selections =>
      [⟨parent, node, definition, selections, condition.and (Condition.asked node.directives)⟩]
  | .inline written _ directives selections =>
      if ∀ type ∈ written, schema.Possible type concrete then
        ofSelections schema concrete (condition.and (Condition.asked directives)) selections
      else []
  | .spread _ directives type selections =>
      if schema.Possible type concrete then
        ofSelections schema concrete (condition.and (Condition.asked directives)) selections
      else []
  | .dangling .. => []

/-- The occurrences of fields that a selection set gives for a concrete type. -/
def ofSelections (schema : Schema) (concrete : Name) (condition : Condition) :
    List Resolved → List Occurrence
  | [] => []
  | selection :: rest =>
      ofSelection schema concrete condition selection
        ++ ofSelections schema concrete condition rest

end

/-- The occurrences of fields that several selection sets give for a concrete type. -/
def occurrences (schema : Schema) (concrete : Name) (state : List Branch) : List Occurrence :=
  state.flatMap fun branch => ofSelections schema concrete branch.2 branch.1

/-- The response names that are selected for a concrete type, in the order in which they first
occur. -/
def responseNames (schema : Schema) (concrete : Name) (state : List Branch) : List Name :=
  distinct ((occurrences schema concrete state).map Occurrence.responseName)

/-- What is selected below a response name, for a concrete type. -/
def next (schema : Schema) (state : List Branch) (step : Name × Name) : List Branch :=
  ((occurrences schema step.1 state).filter (·.responseName = step.2)).map
    fun o => (o.selections, o.condition)

/-- What is selected at the end of a walk of concrete types and response names. -/
def along (schema : Schema) (state : List Branch) (route : List (Name × Name)) : List Branch :=
  route.foldl (next schema) state

end Typewise

/-! ## Walks -/

namespace Field

/-- The field of a response name in the shape of a concrete type. -/
def step? (field : Field) (step : Name × Name) : Option Field :=
  (field.concreteShape? step.1).bind (·.field? step.2)

/-- The field at the end of a walk of concrete types and response names. -/
def follow (field : Field) (route : List (Name × Name)) : Option Field :=
  route.foldlM step? field

@[simp] theorem follow_nil (field : Field) : field.follow [] = some field := rfl

@[simp] theorem follow_cons (field : Field) (step : Name × Name) (rest : List (Name × Name)) :
    field.follow (step :: rest) = (field.step? step).bind (·.follow rest) := rfl

/-- The field has sub-selections and the concrete type is possible for its innermost type. -/
def CanHold (schema : Schema) (field : Field) (concrete : Name) : Prop :=
  field.type.leaf.isComposite = true ∧ schema.Possible field.type.leafName concrete

instance (schema : Schema) (field : Field) (concrete : Name) :
    Decidable (field.CanHold schema concrete) :=
  inferInstanceAs (Decidable (_ ∧ _))

/-- As far as the walk leads through the tree, each of its concrete types is possible for the field
reached before it. -/
def Admits (schema : Schema) : Field → List (Name × Name) → Prop
  | _, [] => True
  | field, step :: rest =>
      field.CanHold schema step.1 ∧ ∀ sub ∈ field.step? step, sub.Admits schema rest

instance decidableAdmits (schema : Schema) :
    ∀ (field : Field) (route : List (Name × Name)), Decidable (field.Admits schema route)
  | _, [] => inferInstanceAs (Decidable True)
  | field, step :: rest =>
      have := fun sub : Field => decidableAdmits schema sub rest
      inferInstanceAs (Decidable (field.CanHold schema step.1 ∧
        ∀ sub ∈ field.step? step, sub.Admits schema rest))

end Field

/-! ## Documents with type conditions -/

mutual

/-- Whether every inline fragment in a selection has a type condition. -/
def Selection.conditioned : Selection → Bool
  | .field _ selections => conditionedAll selections
  | .spread .. => true
  | .inline condition _ selections => condition.isSome && conditionedAll selections

/-- Whether every inline fragment in a selection set has a type condition. -/
def Selection.conditionedAll : List Selection → Bool
  | [] => true
  | selection :: rest => conditioned selection && conditionedAll rest

end

/-- Whether every inline fragment in the document has a type condition. -/
def Document.conditioned (document : Document) : Bool :=
  document.operations.all (fun operation => Selection.conditionedAll operation.selections)
    && document.fragments.all fun fragment => Selection.conditionedAll fragment.selections

theorem Document.conditioned_iff {document : Document} : document.conditioned = true ↔
    (∀ operation ∈ document.operations, Selection.conditionedAll operation.selections = true) ∧
    ∀ fragment ∈ document.fragments, Selection.conditionedAll fragment.selections = true := by
  simp [Document.conditioned]

mutual

/-- Every inline fragment in a resolved selection has a type condition. -/
def Resolved.Conditioned : Resolved → Prop
  | .field _ _ _ selections => ConditionedAll selections
  | .inline written type _ selections => written = some type ∧ ConditionedAll selections
  | .spread _ _ _ selections => ConditionedAll selections
  | .dangling .. => True

/-- Every inline fragment in a resolved selection set has a type condition. -/
def Resolved.ConditionedAll : List Resolved → Prop
  | [] => True
  | selection :: rest => Conditioned selection ∧ ConditionedAll rest

end

namespace Library

variable {library : Library} {schema : Schema}
  (hlibrary : ∀ entry ∈ library.entries,
    Selection.conditionedAll entry.2.fragment.selections = true)
include hlibrary

theorem Unfolding.conditionedAll {rounds : Nat} {inside : List Name} {parent : Name}
    {written : List Selection} {resolved : List Resolved}
    (h : library.Unfolding schema rounds inside parent written resolved)
    (hwritten : Selection.conditionedAll written = true) : Resolved.ConditionedAll resolved := by
  induction h with
  | nil => trivial
  | field _ _ _ ihbelow ihrest =>
      obtain ⟨hbelow, hrest⟩ := Bool.and_eq_true_iff.1 hwritten
      exact ⟨ihbelow hbelow, ihrest hrest⟩
  | @inline _ _ condition _ _ _ _ _ _ _ ihbelow ihrest =>
      obtain ⟨hfirst, hrest⟩ := Bool.and_eq_true_iff.1 hwritten
      obtain ⟨hcondition, hbelow⟩ := Bool.and_eq_true_iff.1 hfirst
      obtain ⟨type, rfl⟩ := Option.isSome_iff_exists.1 hcondition
      exact ⟨⟨rfl, ihbelow hbelow⟩, ihrest hrest⟩
  | enter hentry _ _ _ ihbelow ihrest =>
      exact ⟨ihbelow (hlibrary _ (mem_of_lookup_eq_some hentry)),
        ihrest (Bool.and_eq_true_iff.1 hwritten).2⟩
  | cut _ _ _ ihrest => exact ⟨trivial, ihrest (Bool.and_eq_true_iff.1 hwritten).2⟩
  | undefined _ _ ihrest => exact ⟨trivial, ihrest (Bool.and_eq_true_iff.1 hwritten).2⟩

theorem conditionedAll_of_resolve {rounds : Nat} {type : Name} {selections : List Selection}
    {resolved : List Resolved} (hwritten : Selection.conditionedAll selections = true)
    (h : library.resolve schema rounds type selections = .ok resolved) :
    Resolved.ConditionedAll resolved :=
  (unfolding_of_resolve h).conditionedAll hlibrary hwritten

end Library

/-- If the inline fragments of all documents have type conditions, so have those in the selections
of every tree. -/
theorem Linked.IsTop.conditionedAll {options : Options} {schema : Schema}
    {documents accompanying : List Document}
    {linked : Linked} {model : Model} {selections : List Resolved} {data : Field}
    (hlink : Linked.ofDocuments options schema documents accompanying = .ok linked)
    (hdocuments : ∀ document ∈ documents ++ accompanying, document.conditioned = true)
    (h : linked.IsTop model selections data) : Resolved.ConditionedAll selections := by
  have hfrom := Linked.linkedFrom hlink
  have hlibrary : ∀ entry ∈ linked.library.entries,
      Selection.conditionedAll entry.2.fragment.selections = true := by
    intro entry hentry
    rw [hfrom.library_eq] at hentry
    obtain ⟨-, document, hdocument, hfragment⟩ := Library.mem_entries hentry
    exact (Document.conditioned_iff.1 (hdocuments document hdocument)).2 _ hfragment
  cases h with
  | @operation operation _ hzip =>
      obtain ⟨written, hmem, -, -, hresolve⟩ :=
        exists_of_forall₂_of_mem hfrom.operations (List.of_mem_zip hzip).1
      refine Library.conditionedAll_of_resolve hlibrary ?_ hresolve
      obtain ⟨document, hdocument, hmem⟩ := List.mem_flatMap.1 hmem
      obtain ⟨op, hop, rfl⟩ := List.mem_map.1 hmem
      have hall := hdocuments document (List.mem_append_left _ hdocument)
      refine (Document.conditioned_iff.1 hall).1 op ?_
      rw [Document.inOrder, List.mem_append, List.mem_filter, List.mem_filter] at hop
      exact hop.elim And.left And.left
  | @fragment fragment fragmentModel _ hlookup =>
      obtain ⟨hentry, hresolve⟩ := hfrom.exists_entry (mem_of_lookup_eq_some hlookup)
      exact Library.conditionedAll_of_resolve hlibrary (hlibrary _ hentry) hresolve

/-! ## One level -/

namespace Typewise

variable {schema : Schema} {concrete : Name}

/-- What relates a selection set to every occurrence that is collected in it: it has to hold of the
field at its head, and pass up from a fragment at its head and from the rest. -/
theorem forall_mem_ofSelections {P : List Resolved → Occurrence → Prop}
    (field : ∀ parent node definition selections rest, ∀ condition : Condition,
      P (.field parent node definition selections :: rest)
        ⟨parent, node, definition, selections, condition.and (Condition.asked node.directives)⟩)
    (inline : ∀ written type directives selections rest o, P selections o →
      P (.inline written type directives selections :: rest) o)
    (spread : ∀ name directives type selections rest o, P selections o →
      P (.spread name directives type selections :: rest) o)
    (tail : ∀ selection rest o, P rest o → P (selection :: rest) o)
    {condition : Condition} {selections : List Resolved} :
    ∀ o ∈ ofSelections schema concrete condition selections, P selections o := by
  induction selections using Resolved.forest_induction generalizing condition with
  | nil => exact fun o ho => absurd ho List.not_mem_nil
  | field parent node definition selections rest _ ihrest =>
      intro o ho
      rw [ofSelections, ofSelection, List.mem_append, List.mem_singleton] at ho
      rcases ho with rfl | ho
      · exact field parent node definition selections rest condition
      · exact tail _ rest o (ihrest o ho)
  | inline written type directives selections rest ihbelow ihrest =>
      intro o ho
      rw [ofSelections, ofSelection, List.mem_append] at ho
      rcases ho with ho | ho
      · split at ho
        · exact inline written type directives selections rest o (ihbelow o ho)
        · exact absurd ho List.not_mem_nil
      · exact tail _ rest o (ihrest o ho)
  | spread name directives type selections rest ihbelow ihrest =>
      intro o ho
      rw [ofSelections, ofSelection, List.mem_append] at ho
      rcases ho with ho | ho
      · split at ho
        · exact spread name directives type selections rest o (ihbelow o ho)
        · exact absurd ho List.not_mem_nil
      · exact tail _ rest o (ihrest o ho)
  | dangling name directives reason rest ihrest =>
      intro o ho
      rw [ofSelections, ofSelection, List.nil_append] at ho
      exact tail _ rest o (ihrest o ho)

/-- The selections below an occurrence keep their type conditions. -/
theorem conditionedAll_of_mem_next {state : List Branch} {step : Name × Name}
    (h : ∀ branch ∈ state, Resolved.ConditionedAll branch.1) :
    ∀ branch ∈ next schema state step, Resolved.ConditionedAll branch.1 := by
  intro branch hbranch
  obtain ⟨o, ho, rfl⟩ := List.mem_map.1 hbranch
  obtain ⟨origin, horigin, ho⟩ := List.mem_flatMap.1 (List.mem_filter.1 ho).1
  have hkept := forall_mem_ofSelections
    (P := fun selections o =>
      Resolved.ConditionedAll selections → Resolved.ConditionedAll o.selections)
    (fun _ _ _ _ _ _ h => h.1) (fun _ _ _ _ _ _ ih h => ih h.1.2)
    (fun _ _ _ _ _ _ ih h => ih h.1) (fun _ _ _ ih h => ih h.2) o ho
  exact hkept (h origin horigin)

end Typewise

/-- Flattening follows the rule for a concrete type if it enters a fragment exactly when the type
is possible for its condition. -/
theorem occurrences_of_flattenAll {schema : Schema} {concrete : Name} {applies : Name → Bool}
    {condition : Condition} {selections : List Resolved} {conditions : List Name}
    {pieces : List Flat} (hselections : Resolved.ConditionedAll selections)
    (hconditions : Resolved.typeConditionsAll selections = .ok conditions)
    (happlies : ∀ type ∈ conditions, applies type = true ↔ schema.Possible type concrete)
    (h : Resolved.flattenAll applies condition selections = .ok pieces) :
    Flat.occurrences pieces = Typewise.ofSelections schema concrete condition selections := by
  induction selections using Resolved.forest_induction
    generalizing condition conditions pieces with
  | nil =>
      obtain rfl := Except.ok.inj h
      rfl
  | field parent node definition selections rest _ ihrest =>
      obtain ⟨first, others, hfirst, hothers, rfl⟩ := Resolved.flattenAll_cons_eq_ok.1 h
      obtain ⟨own, hown, rfl⟩ := Resolved.flatten_field_eq_ok.1 hfirst
      obtain ⟨types, more, -, hmore, rfl⟩ := Resolved.typeConditionsAll_cons_eq_ok.1 hconditions
      rw [Flat.occurrences_append, Typewise.ofSelections, Typewise.ofSelection,
        ← Condition.eq_asked_of_ofDirectives hown,
        ihrest hselections.2 hmore (fun t ht => happlies t (List.mem_append_right _ ht)) hothers]
      rfl
  | inline written type directives selections rest ihbelow ihrest =>
      obtain ⟨first, others, hfirst, hothers, rfl⟩ := Resolved.flattenAll_cons_eq_ok.1 h
      obtain ⟨types, more, htypes, hmore, rfl⟩ :=
        Resolved.typeConditionsAll_cons_eq_ok.1 hconditions
      obtain ⟨below, hbelow, rfl⟩ := except_map_eq_ok.1 htypes
      obtain ⟨⟨rfl, hinside⟩, hrest⟩ := hselections
      rw [Flat.occurrences_append, Typewise.ofSelections, Typewise.ofSelection,
        ihrest hrest hmore (fun t ht => happlies t (List.mem_append_right _ ht)) hothers]
      congr 1
      have htype := happlies type (by simp)
      rcases Resolved.flatten_inline_eq_ok.1 hfirst with ⟨hno, rfl⟩ | ⟨hyes, own, hown, hinner⟩
      · rw [if_neg]
        · rfl
        · intro hpossible
          rw [htype.2 (hpossible type rfl)] at hno
          exact Bool.false_ne_true hno.symm
      · rw [if_pos, ← Condition.eq_asked_of_ofDirectives hown]
        · exact ihbelow hinside hbelow (fun t ht => happlies t (by simp [ht])) hinner
        · intro t ht
          obtain rfl := Option.some.inj ht
          exact htype.1 hyes
  | spread name directives type selections rest ihbelow ihrest =>
      obtain ⟨first, others, hfirst, hothers, rfl⟩ := Resolved.flattenAll_cons_eq_ok.1 h
      obtain ⟨types, more, htypes, hmore, rfl⟩ :=
        Resolved.typeConditionsAll_cons_eq_ok.1 hconditions
      obtain ⟨below, hbelow, rfl⟩ := except_map_eq_ok.1 htypes
      rw [Flat.occurrences_append, Typewise.ofSelections, Typewise.ofSelection,
        ihrest hselections.2 hmore (fun t ht => happlies t (List.mem_append_right _ ht)) hothers]
      congr 1
      have htype := happlies type (by simp)
      rcases Resolved.flatten_spread_eq_ok.1 hfirst with
        ⟨hno, rfl⟩ | ⟨hyes, own, inner, hown, hinner, rfl⟩
      · rw [if_neg]
        · rfl
        · intro hpossible
          rw [htype.2 hpossible] at hno
          exact Bool.false_ne_true hno.symm
      · rw [if_pos (htype.1 hyes), ← Condition.eq_asked_of_ofDirectives hown]
        show Flat.occurrences inner = _
        exact ihbelow hselections.1 hbelow (fun t ht => happlies t (by simp [ht])) hinner
  | dangling name directives reason rest _ =>
      obtain ⟨first, others, hfirst, -, -⟩ := Resolved.flattenAll_cons_eq_ok.1 h
      exact absurd hfirst Resolved.flatten_dangling_ne_ok

theorem occurrences_of_flattenBranches {schema : Schema} {concrete : Name}
    {applies : Name → Bool} {branches : List Branch} {conditions : List Name}
    {pieces : List Flat} (hbranches : ∀ branch ∈ branches, Resolved.ConditionedAll branch.1)
    (hconditions : branchConditions branches = .ok conditions)
    (happlies : ∀ type ∈ conditions, applies type = true ↔ schema.Possible type concrete)
    (h : flattenBranches applies branches = .ok pieces) :
    Flat.occurrences pieces = Typewise.occurrences schema concrete branches := by
  induction branches generalizing conditions pieces with
  | nil =>
      obtain rfl := Except.ok.inj h
      rfl
  | cons branch rest ih =>
      obtain ⟨first, others, hfirst, hothers, rfl⟩ := flattenBranches_cons_eq_ok.1 h
      obtain ⟨types, more, htypes, hmore, rfl⟩ := except_append_eq_ok.1 hconditions
      rw [Flat.occurrences_append,
        occurrences_of_flattenAll (hbranches branch List.mem_cons_self) htypes
          (fun t ht => happlies t (List.mem_append_left _ ht)) hfirst,
        ih (fun b hb => hbranches b (List.mem_cons_of_mem _ hb)) hmore
          (fun t ht => happlies t (List.mem_append_right _ ht)) hothers]
      rfl

/-! ## Walks through a tree -/

namespace Builder

variable {builder : Builder}

/-- The field is built from the branches of a state: its shapes from their selections, its
condition from their conditions. -/
structure BuiltFrom (builder : Builder) (state : List Branch) (field : Field) : Prop where
  fills : field.type.leaf.isComposite = true →
    ∃ request, builder.Fills request field ∧ request.branches = state
  condition : field.condition = Condition.any (state.map Prod.snd)
  conditioned : ∀ branch ∈ state, Resolved.ConditionedAll branch.1

theorem DataFieldFrom.builtFrom {type : Name} {selections : List Resolved} {root : Path}
    {data : Field} (h : builder.DataFieldFrom type selections root data)
    (hselections : Resolved.ConditionedAll selections) :
    builder.BuiltFrom [(selections, .always)] data := by
  refine ⟨fun _ => ⟨_, h.fills, rfl⟩, h.condition, fun branch hbranch => ?_⟩
  rw [List.mem_singleton] at hbranch
  rw [hbranch]
  exact hselections

/-- One step: the shape of a concrete type has the fields that are collected for the type, and each
of them is built from what is selected below its response name. -/
theorem BuiltFrom.shape {state : List Branch} {field : Field} {concrete : Name}
    (h : builder.BuiltFrom state field) (hc : field.CanHold builder.schema concrete) :
    ∃ shape, field.concreteShape? concrete = some shape ∧
      shape.fields.map Field.responseName =
        Typewise.responseNames builder.schema concrete state ∧
      ∀ sub ∈ shape.fields, builder.BuiltFrom
        (Typewise.next builder.schema state (concrete, sub.responseName)) sub := by
  obtain ⟨request, hfills, rfl⟩ := h.fills hc.1
  obtain ⟨conditions, hlevel⟩ := hfills.built.level
  have hpossible : builder.schema.Possible request.fieldType concrete := by
    rw [hfills.fieldType]
    exact hc.2
  obtain ⟨before, shape, after, hsplit, hset, hconcrete, -⟩ := hlevel.exists_concrete hpossible
  obtain ⟨collected, hfrom⟩ := hlevel.shape before shape after hsplit
  obtain ⟨pieces, hpieces, hgroups⟩ := hfrom.groups
  have happlies : ∀ type ∈ conditions,
      builder.schema.applies shape.typeSet shape.possibleTypes type = true ↔
        builder.schema.Possible type concrete := by
    intro type htype
    rw [hfrom.possibleTypes, hset]
    exact Schema.applies_typeSetOf_iff hpossible htype
  rw [occurrences_of_flattenBranches h.conditioned hlevel.conditionsOf happlies hpieces] at hgroups
  refine ⟨shape, hconcrete, hfrom.map_responseName.trans hgroups.names, fun sub hsub => ?_⟩
  obtain ⟨entry, hentry, hname, hsubfrom⟩ := hfrom.exists_entry hsub
  have hnext : Typewise.next builder.schema request.branches (concrete, sub.responseName) =
      entry.2.occurrences.map fun o => (o.selections, o.condition) := by
    rw [Typewise.next, ← hname, hgroups.occurrences entry hentry]
  refine ⟨fun hcomposite => ⟨_, hsubfrom.fills hname hcomposite, hnext.symm⟩, ?_,
    Typewise.conditionedAll_of_mem_next h.conditioned⟩
  rw [hsubfrom.condition, hnext, List.map_map]
  rfl

theorem BuiltFrom.step {state : List Branch} {field sub : Field} {step : Name × Name}
    (h : builder.BuiltFrom state field) (hc : field.CanHold builder.schema step.1)
    (hsub : field.step? step = some sub) :
    builder.BuiltFrom (Typewise.next builder.schema state step) sub := by
  obtain ⟨shape, hshape, -, hbelow⟩ := h.shape hc
  rw [Field.step?, hshape, Option.bind_some] at hsub
  obtain ⟨hmem, hname⟩ := ShapeOf.field?_eq_some hsub
  have hbuilt := hbelow sub hmem
  rwa [hname] at hbuilt

/-- A whole walk: the field at its end is built from what is selected there. -/
theorem BuiltFrom.follow {state : List Branch} {field last : Field} {route : List (Name × Name)}
    (h : builder.BuiltFrom state field) (hroute : field.Admits builder.schema route)
    (hlast : field.follow route = some last) :
    builder.BuiltFrom (Typewise.along builder.schema state route) last := by
  induction route generalizing state field with
  | nil =>
      obtain rfl := Option.some.inj hlast
      exact h
  | cons step rest ih =>
      rw [Field.follow_cons] at hlast
      obtain ⟨sub, hsub, hlast⟩ := Option.bind_eq_some_iff.1 hlast
      exact ih (h.step hroute.1 hsub) (hroute.2 sub hsub) hlast

end Builder

/-- **Shapes agree with collecting type by type.**  Walk through the tree of an operation or a
fragment by concrete types and response names, each type possible for the field reached before it.
For every concrete type of the field at the end there is a shape; its fields are the response names
that the rule collects for that type at the end of the same walk, in the same order, and the
condition of each merges the conditions of its occurrences. -/
theorem concreteShape?_collects {options : Options} {schema : Schema}
    {documents accompanying : List Document}
    {linked : Linked} {config : Config} {model : Model}
    (hlink : Linked.ofDocuments options schema documents accompanying = .ok linked)
    (hbuild : (linked.build config).result = .ok model)
    (hdocuments : ∀ document ∈ documents ++ accompanying, document.conditioned = true)
    {selections : List Resolved} {data : Field} (htop : linked.IsTop model selections data)
    {route : List (Name × Name)} {field : Field} {concrete : Name}
    (hroute : data.Admits schema route) (hfield : data.follow route = some field)
    (hconcrete : field.CanHold schema concrete) :
    let state := Typewise.along schema [(selections, .always)] route
    ∃ shape, field.concreteShape? concrete = some shape ∧
      shape.fields.map Field.responseName = Typewise.responseNames schema concrete state ∧
      ∀ sub ∈ shape.fields, sub.condition =
        Condition.any ((Typewise.next schema state (concrete, sub.responseName)).map
          Prod.snd) := by
  obtain ⟨builder, rfl, type, root, hdata⟩ := htop.dataFieldFrom hlink hbuild
  have hbuilt := hdata.builtFrom (htop.conditionedAll hlink hdocuments)
  obtain ⟨shape, hshape, hnames, hbelow⟩ := (hbuilt.follow hroute hfield).shape hconcrete
  exact ⟨shape, hshape, hnames, fun sub hsub => (hbelow sub hsub).condition⟩

theorem Sample.follow_pet_isSome :
    (Sample.data.follow [("Query", "pet")]).isSome = true := by decide +kernel

theorem concreteShape?_collects_cat :
    Sample.document.conditioned = true ∧ Sample.data.Admits Sample.schema [("Query", "pet")] ∧
    ∃ pet shape, Sample.data.follow [("Query", "pet")] = some pet ∧
      pet.CanHold Sample.schema "Cat" ∧ pet.concreteShape? "Cat" = some shape ∧
      shape.fields.map Field.responseName = ["name", "mate", "volume"] := by
  have hdocument : Sample.document.conditioned = true := by decide +kernel
  have hroute : Sample.data.Admits Sample.schema [("Query", "pet")] := by decide +kernel
  have hpet := (Option.some_get Sample.follow_pet_isSome).symm
  have hcat : ((Sample.data.follow [("Query", "pet")]).get
      Sample.follow_pet_isSome).CanHold Sample.schema "Cat" := by
    decide +kernel
  have hnames : Typewise.responseNames Sample.schema "Cat"
      (Typewise.along Sample.schema [(Sample.selections, .always)] [("Query", "pet")]) =
        ["name", "mate", "volume"] := by
    decide +kernel
  obtain ⟨shape, hshape, hfields, -⟩ := concreteShape?_collects Sample.ofDocuments_eq
    Sample.build_eq (by simpa using hdocument) Sample.isTop hroute hpet hcat
  exact ⟨hdocument, hroute, _, shape, hpet, hcat, hshape, hfields.trans hnames⟩

end ResponseModel
