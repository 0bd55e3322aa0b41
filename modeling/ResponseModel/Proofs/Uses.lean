import ResponseModel.Inference
import ResponseModel.Proofs.Conditions
import ResponseModel.Proofs.Dependencies
import ResponseModel.Proofs.Inclusion
import ResponseModel.Proofs.Outlines
import ResponseModel.Proofs.TypeOrder

/-!
# Uses of variables

What a selection set does with variables, and what the search for them finds.  A coerced value has
the variables of the literal (`vars_of_coerce`), all of them are used in it
(`vars_subset_of_coerce`), and a variable in the condition of a selection is used in its directives
(`names_subset_of_ofDirectives`).

The search enters every fragment once, so it may pass by a spread whose fragment was entered
elsewhere.  Still it finds every use in the selections, those in fragments at every spread included
(`allUses_subset_usesAll`), and nothing else (`usesAll_subset_allUses`).  What it makes of the uses
is the least strict type for each variable that suits all of them (`Inference.TypesOf`).
-/

namespace ResponseModel

/-- The variable that is used, unless there is a fault. -/
def Use.name? : Use → Option Name
  | .typed name _ => some name
  | .untyped name => some name
  | .fault _ => none

namespace Use

/-- The variables that are used. -/
def names (uses : List Use) : List Name := uses.filterMap name?

theorem mem_names {uses : List Use} {name : Name} :
    name ∈ names uses ↔ ∃ use ∈ uses, use.name? = some name := List.mem_filterMap

@[simp] theorem names_append (first second : List Use) :
    names (first ++ second) = names first ++ names second := List.filterMap_append

@[simp] theorem names_map_untyped (vars : List Name) : names (vars.map .untyped) = vars := by
  induction vars with
  | nil => rfl
  | cons name rest ih => exact congrArg (name :: ·) ih

theorem names_subset {uses more : List Use} (h : uses ⊆ more) : names uses ⊆ names more := by
  intro name hname
  obtain ⟨use, huse, hsame⟩ := mem_names.1 hname
  exact mem_names.2 ⟨use, h huse, hsame⟩

end Use

/-! ## Literals and values -/

namespace Value

mutual

/-- The variables in a value, in order. -/
def vars : Value → List Name
  | .var name => [name]
  | .list items => varsOfItems items
  | .object fields => varsOfFields fields
  | _ => []

/-- The variables in the items of a list. -/
def varsOfItems : List Value → List Name
  | [] => []
  | item :: rest => item.vars ++ varsOfItems rest

/-- The variables in the fields of an object. -/
def varsOfFields : List (Name × Value) → List Name
  | [] => []
  | (_, value) :: rest => value.vars ++ varsOfFields rest

end

end Value

namespace Outline

mutual

/-- The variables in an outline, in order. -/
def vars : Outline → List Name
  | .leaf => []
  | .var name => [name]
  | .list items => varsOfItems items
  | .object fields => varsOfFields fields

/-- The variables in the items of a list. -/
def varsOfItems : List Outline → List Name
  | [] => []
  | item :: rest => item.vars ++ varsOfItems rest

/-- The variables in the fields of an object. -/
def varsOfFields : List (Name × Outline) → List Name
  | [] => []
  | (_, value) :: rest => value.vars ++ varsOfFields rest

end

end Outline

mutual

/-- The outline of a literal has its variables. -/
theorem Literal.vars_outline : ∀ literal : Literal, literal.outline.vars = literal.vars
  | .null | .boolean _ | .string _ | .enum _ | .var _ | .int _ | .float _ => rfl
  | .list items => Literal.varsOfItems_outlineItems items
  | .object fields => Literal.varsOfFields_outlineFields fields

theorem Literal.varsOfItems_outlineItems : ∀ items : List Literal,
    Outline.varsOfItems (Literal.outlineItems items) = Literal.varsOfItems items
  | [] => rfl
  | item :: rest => by
      rw [outlineItems, Outline.varsOfItems, varsOfItems, vars_outline item,
        varsOfItems_outlineItems rest]

theorem Literal.varsOfFields_outlineFields : ∀ fields : List (Name × Literal),
    Outline.varsOfFields (Literal.outlineFields fields) = Literal.varsOfFields fields
  | [] => rfl
  | (_, value) :: rest => by
      rw [outlineFields, Outline.varsOfFields, varsOfFields, vars_outline value,
        varsOfFields_outlineFields rest]

end

mutual

/-- The outline of a value has its variables. -/
theorem Value.vars_outline : ∀ value : Value, value.outline.vars = value.vars
  | .null | .boolean _ | .string _ | .enum _ | .var _ | .int _ | .float _ => rfl
  | .list items => Value.varsOfItems_outlineItems items
  | .object fields => Value.varsOfFields_outlineFields fields

theorem Value.varsOfItems_outlineItems : ∀ items : List Value,
    Outline.varsOfItems (Value.outlineItems items) = Value.varsOfItems items
  | [] => rfl
  | item :: rest => by
      rw [outlineItems, Outline.varsOfItems, varsOfItems, vars_outline item,
        varsOfItems_outlineItems rest]

theorem Value.varsOfFields_outlineFields : ∀ fields : List (Name × Value),
    Outline.varsOfFields (Value.outlineFields fields) = Value.varsOfFields fields
  | [] => rfl
  | (_, value) :: rest => by
      rw [outlineFields, Outline.varsOfFields, varsOfFields, vars_outline value,
        varsOfFields_outlineFields rest]

end

namespace Coercion

variable {schema : Schema}

/-- A coerced value has the variables of the literal, in the same order. -/
theorem vars_of_coerce {type : TypeRef} {literal : Literal} {value : Value}
    (h : coerce schema type literal = .ok value) : value.vars = literal.vars := by
  rw [← value.vars_outline, outline_of_coerce h, literal.vars_outline]

theorem FieldsBy.vars_subset {definitions : List InputDefinition}
    {fields : List (Name × Literal)} {values : List (Name × Value)}
    (h : FieldsBy (fun type literal value => value.vars ⊆ Use.names (literal.uses schema type))
      definitions fields values) :
    Value.varsOfFields values ⊆ Use.names (Literal.usesOfFields schema definitions fields) := by
  induction h with
  | nil => exact List.nil_subset _
  | cons hfield _ ih =>
      obtain ⟨-, definition, hfind, hvars⟩ := hfield
      rw [Value.varsOfFields, Literal.usesOfFields, hfind, Use.names_append]
      exact append_subset_append hvars ih

theorem respects_uses : Respects schema fun type literal value =>
    value.vars ⊆ Use.names (literal.uses schema type) where
  var type name := by
    rw [Literal.uses]
    exact List.Subset.refl [name]
  null _ _ := List.nil_subset _
  list _ _ _ _ h := by
    rw [Value.vars, Literal.uses]
    induction h with
    | nil => exact List.nil_subset _
    | cons hitem _ ih =>
        rw [Value.varsOfItems, Literal.usesOfItems, Use.names_append]
        exact append_subset_append hitem ih
  builtIn _ _ _ _ h := by cases h <;> exact List.nil_subset _
  enum _ _ _ _ _ _ := List.nil_subset _
  object name required definitions fields values hbody _ hfields _ := by
    have hinput : schema.inputFields? name = some definitions := by
      simp [Schema.inputFields?, hbody]
    simp only [Literal.uses, TypeRef.innerName, hinput]
    exact hfields.vars_subset
  custom name required literal hcustom _ hlist := by
    -- anything goes here, but then nothing has a type
    have hinput : schema.inputFields? name = none := by simp [Schema.inputFields?, hcustom.1]
    rw [← Value.vars_outline, literal.outline_verbatim, literal.vars_outline]
    cases literal with
    | list items => exact absurd rfl (hlist items)
    | object fields => simp [Literal.uses, Literal.vars, TypeRef.innerName, hinput]
    | var key => simp [Literal.uses, Literal.vars, Use.names, Use.name?]
    | null | boolean _ | string _ | int _ | float _ | enum _ => exact List.nil_subset _

/-- The variables in a coerced value are used in the literal. -/
theorem vars_subset_of_coerce {literal : Literal} {type : TypeRef} {value : Value}
    (h : coerce schema type literal = .ok value) :
    value.vars ⊆ Use.names (literal.uses schema type) :=
  respects_uses.of_coerce h

end Coercion

/-! ## Conditions -/

namespace Condition

theorem mem_insertTerm? {term found : Term} {terms sorted : List Term}
    (h : insertTerm? term terms = some sorted) (hfound : found ∈ sorted) :
    found = term ∨ found ∈ terms := by
  induction terms generalizing sorted with
  | nil =>
      obtain rfl := Option.some.inj h
      exact .inl (List.mem_singleton.1 hfound)
  | cons first rest ih =>
      unfold insertTerm? at h
      split_ifs at h with hlt hname hsign
      · obtain rfl := Option.some.inj h
        exact List.mem_cons.1 hfound
      · obtain rfl := Option.some.inj h
        exact .inr hfound
      · obtain ⟨inner, hinner, rfl⟩ := Option.map_eq_some_iff.1 h
        rcases List.mem_cons.1 hfound with rfl | hfound
        · exact .inr List.mem_cons_self
        · exact (ih hinner hfound).imp id (List.mem_cons_of_mem _)

theorem mem_insertTerms? {found : Term} {terms sorted result : List Term}
    (h : insertTerms? terms sorted = some result) (hfound : found ∈ result) :
    found ∈ terms ∨ found ∈ sorted := by
  induction terms generalizing result with
  | nil =>
      obtain rfl := Option.some.inj h
      exact .inr hfound
  | cons term rest ih =>
      obtain ⟨inner, hinner, h⟩ := Option.bind_eq_some_iff.1 h
      rcases mem_insertTerm? h hfound with rfl | hfound
      · exact .inl List.mem_cons_self
      · exact (ih hinner hfound).imp (List.mem_cons_of_mem _) id

/-- A term that is gathered is a term of one of the conditions. -/
theorem mem_gather? {conditions : List Condition} {terms : List Term} {found : Term}
    (h : gather? conditions = some terms) (hfound : found ∈ terms) :
    ∃ condition ∈ conditions, ∃ own, condition.terms? = some own ∧ found ∈ own := by
  induction conditions generalizing terms with
  | nil =>
      obtain rfl := Option.some.inj h
      exact absurd hfound List.not_mem_nil
  | cons condition rest ih =>
      obtain ⟨sorted, hsorted, h⟩ := Option.bind_eq_some_iff.1 h
      obtain ⟨own, hown, h⟩ := Option.bind_eq_some_iff.1 h
      rcases mem_insertTerms? h hfound with hfound | hfound
      · exact ⟨condition, List.mem_cons_self, own, hown, hfound⟩
      · obtain ⟨other, hother, hterms⟩ := ih hsorted hfound
        exact ⟨other, List.mem_cons_of_mem _ hother, hterms⟩

theorem mem_names_iff {condition : Condition} {name : Name} : name ∈ condition.names ↔
    ∃ terms, condition.terms? = some terms ∧ ∃ term ∈ terms, term.name = name := by
  unfold names
  cases condition.terms? <;> simp

/-- The variables of a conjunction are variables of its members. -/
theorem exists_of_mem_names_all {conditions : List Condition} {name : Name}
    (h : name ∈ (all conditions).names) : ∃ condition ∈ conditions, name ∈ condition.names := by
  unfold all at h
  cases hgather : gather? conditions with
  | none =>
      rw [hgather] at h
      exact absurd h List.not_mem_nil
  | some terms =>
      simp only [hgather, mem_names_iff, terms?_ofTerms, Option.some.injEq, exists_eq_left'] at h
      obtain ⟨term, hterm, rfl⟩ := h
      obtain ⟨condition, hcondition, own, hown, hterm⟩ := mem_gather? hgather hterm
      exact ⟨condition, hcondition, mem_names_iff.2 ⟨own, hown, term, hterm, rfl⟩⟩

theorem mem_names_and {left right : Condition} {name : Name} (h : name ∈ (left.and right).names) :
    name ∈ left.names ∨ name ∈ right.names := by
  obtain ⟨condition, hcondition, hname⟩ := exists_of_mem_names_all h
  simp only [List.mem_cons, List.not_mem_nil, or_false] at hcondition
  rcases hcondition with rfl | rfl
  · exact .inl hname
  · exact .inr hname

/-- The variables that merged branches keep are variables of one of them. -/
theorem exists_of_mem_names_any {branches : List Condition} {name : Name}
    (h : name ∈ (any branches).names) : ∃ branch ∈ branches, name ∈ branch.names := by
  unfold any at h
  split at h
  · exact absurd h List.not_mem_nil
  · next first others hterms =>
      obtain ⟨condition, hcondition, hname⟩ := exists_of_mem_names_all h
      obtain ⟨term, hterm, rfl⟩ := List.mem_map.1 hcondition
      have hfirst : first ∈ branches.filterMap terms? := by
        rw [hterms]
        exact List.mem_cons_self
      obtain ⟨branch, hbranch, hown⟩ := List.mem_filterMap.1 hfirst
      obtain rfl : name = term.name := List.mem_singleton.1 hname
      exact ⟨branch, hbranch,
        mem_names_iff.2 ⟨first, hown, term, (List.mem_filter.1 hterm).1, rfl⟩⟩

end Condition

/-- The schema's definitions of `@skip` and `@include` have an argument `if`. -/
def Schema.DeclaresIf (schema : Schema) : Prop :=
  ∀ name ∈ ["skip", "include"],
    ((schema.directive? name).bind (·.argument? "if")).isSome = true

instance (schema : Schema) : Decidable schema.DeclaresIf :=
  inferInstanceAs (Decidable (∀ name ∈ ["skip", "include"], _))

/-- If the directive is `@skip` or `@include`, its arguments are named `if`. -/
def Directive.NamesIf (directive : Directive) : Prop :=
  directive.name ∈ ["skip", "include"] → ∀ argument ∈ directive.arguments, argument.1 = "if"

instance (directive : Directive) : Decidable directive.NamesIf :=
  inferInstanceAs (Decidable (_ → _))

/-- The variables that a directive asks for are used in it. -/
theorem Directive.names_demand_subset {schema : Schema} (hschema : schema.DeclaresIf)
    {directive : Directive} (hif : directive.NamesIf) :
    directive.demand.names ⊆ Use.names (directive.uses schema) := by
  unfold demand
  split
  · next hname =>
      split
      · next argument value harguments =>
          have hmem : directive.name ∈ ["skip", "include"] := by simpa using hname
          obtain ⟨input, hinput⟩ := Option.isSome_iff_exists.1 (hschema directive.name hmem)
          obtain ⟨definition, hdefinition, hinput⟩ := Option.bind_eq_some_iff.1 hinput
          obtain rfl : argument = "if" := hif hmem (argument, value) (by simp [harguments])
          -- only a variable asks for one
          cases value with
          | var name =>
              have huses : directive.uses schema = [.typed name input.type] := by
                simp [uses, hdefinition, harguments, hinput, Literal.uses]
              rw [huses]
              exact List.Subset.refl [name]
          | boolean value =>
              rw [Literal.demand]
              split <;> exact List.nil_subset _
          | _ => exact List.nil_subset _
      · exact List.nil_subset _
  · exact List.nil_subset _

/-- The variables in the condition of a selection are used in its directives. -/
theorem Condition.names_subset_of_ofDirectives {schema : Schema} (hschema : schema.DeclaresIf)
    {directives : List Directive} (hif : ∀ directive ∈ directives, directive.NamesIf)
    {selection : String} {own : Condition} (h : ofDirectives directives selection = .ok own) :
    own.names ⊆ Use.names (directiveUses schema directives) := by
  intro name hname
  rw [eq_asked_of_ofDirectives h] at hname
  obtain ⟨condition, hcondition, hname⟩ := exists_of_mem_names_all hname
  obtain ⟨directive, hdirective, rfl⟩ := List.mem_map.1 hcondition
  have hown : directive.uses schema ⊆ directiveUses schema directives :=
    fun use huse => List.mem_flatMap.2 ⟨directive, hdirective, huse⟩
  exact Use.names_subset hown
    (Directive.names_demand_subset hschema (hif directive hdirective) hname)

/-! ## Selections -/

namespace Resolved

/-- The directives of a selection. -/
def directives : Resolved → List Directive
  | .field _ node _ _ => node.directives
  | .inline _ _ directives _ => directives
  | .spread _ directives _ _ => directives
  | .dangling _ directives _ => directives

/-- The uses in a selection itself, not in what is selected below it. -/
def ownUses (schema : Schema) (selection : Resolved) : List Use :=
  directiveUses schema selection.directives ++
    match selection with
    | .field _ node definition _ => node.uses schema definition
    | .dangling name _ reason => [.fault (reason.error name)]
    | _ => []

/-- The uses in a selection set, in order, with those in a fragment at every spread of it. -/
def allUses (schema : Schema) (selections : List Resolved) : List Use :=
  (nodesAll selections).flatMap (ownUses schema)

/-- The fragment that a selection asks to enter. -/
def entered? : Resolved → Option Name
  | .spread name _ _ _ => some name
  | .dangling name _ _ => some name
  | _ => none

/-- Entering the fragment that the selection names finds what `content` says, and it does not lead
back to the fragment. -/
def Opens (schema : Schema) (content : Name → List Use) : Resolved → Prop
  | .spread name _ _ selections => content name = allUses schema selections ∧
      ∀ node ∈ nodesAll selections, node.entered? ≠ some name
  | .dangling name _ reason => content name = [.fault (reason.error name)]
  | _ => True

variable {schema : Schema} {selections : List Resolved}

theorem ownUses_subset_allUses {node : Resolved} (h : node ∈ nodesAll selections) :
    node.ownUses schema ⊆ allUses schema selections :=
  fun _ huse => List.mem_flatMap.2 ⟨node, h, huse⟩

variable {rest : List Resolved}

theorem allUses_field {parent : Name} {node : FieldNode} {definition : FieldDefinition} :
    allUses schema (.field parent node definition selections :: rest) =
      directiveUses schema node.directives ++ node.uses schema definition ++
        (allUses schema selections ++ allUses schema rest) := by
  simp [allUses, nodesAll, nodes, ownUses, directives]

theorem allUses_inline {condition : Option Name} {type : Name} {written : List Directive} :
    allUses schema (.inline condition type written selections :: rest) =
      directiveUses schema written ++ (allUses schema selections ++ allUses schema rest) := by
  simp [allUses, nodesAll, nodes, ownUses, directives]

theorem allUses_spread {name type : Name} {written : List Directive} :
    allUses schema (.spread name written type selections :: rest) =
      directiveUses schema written ++ (allUses schema selections ++ allUses schema rest) := by
  simp [allUses, nodesAll, nodes, ownUses, directives]

theorem allUses_dangling {name : Name} {written : List Directive} {reason : Dangling} :
    allUses schema (.dangling name written reason :: rest) =
      directiveUses schema written ++ (.fault (reason.error name) :: allUses schema rest) := by
  simp [allUses, nodesAll, nodes, ownUses, directives]

/-- What a walk knows inside of some fragments when it has entered others: the uses in every
fragment that was entered are known, unless the walk is still inside of it. -/
def Covers (Known : Use → Prop) (content : Name → List Use) (inside entered : List Name) : Prop :=
  ∀ name ∈ entered, name ∈ inside ∨ ∀ use ∈ content name, Known use

namespace Covers

variable {Known : Use → Prop} {content : Name → List Use} {inside entered : List Name} {name : Name}

theorem known (h : Covers Known content inside entered) (hmem : name ∈ entered)
    (houtside : name ∉ inside) : ∀ use ∈ content name, Known use :=
  (h name hmem).resolve_left houtside

theorem enter (h : Covers Known content inside entered) :
    Covers Known content (name :: inside) (entered ++ [name]) := by
  refine List.forall_mem_append.2 ⟨fun other hother => ?_, by simp⟩
  exact (h other hother).imp_left (List.mem_cons_of_mem name)

theorem leave (h : Covers Known content (name :: inside) entered)
    (hknown : ∀ use ∈ content name, Known use) : Covers Known content inside entered := by
  intro other hother
  rcases h other hother with hinside | hother
  · refine (List.mem_cons.1 hinside).symm.imp_right ?_
    rintro rfl
    exact hknown
  · exact .inr hother

end Covers

/-- A walk that passes by the fragments entered before finds everything, as long as it does not meet
those that it is inside of: what is known when it is over, it has found. -/
theorem known_of_mem_allUses {Known : Use → Prop} {content : Name → List Use}
    {inside entered : List Name}
    (hopens : ∀ node ∈ nodesAll selections, node.Opens schema content)
    (hinside : ∀ node ∈ nodesAll selections, ∀ name ∈ inside, node.entered? ≠ some name)
    (hcovers : Covers Known content inside entered)
    (hknown : ∀ use ∈ (usesAll schema entered selections).1, Known use) :
    (∀ use ∈ allUses schema selections, Known use) ∧
      Covers Known content inside (usesAll schema entered selections).2 := by
  induction selections using Resolved.forest_induction generalizing inside entered with
  | nil => exact ⟨fun use huse => absurd huse List.not_mem_nil, hcovers⟩
  | field parent node definition selections rest ihbelow ihrest =>
      simp only [mem_nodesAll_field, or_imp, forall_and, forall_eq] at hopens hinside
      simp only [usesAll, uses, List.forall_mem_append] at hknown
      obtain ⟨hbelow, hcovers'⟩ := ihbelow hopens.2.1 hinside.2.1 hcovers hknown.1.2
      obtain ⟨hrest, hfinal⟩ := ihrest hopens.2.2 hinside.2.2 hcovers' hknown.2
      simp only [allUses_field, List.forall_mem_append]
      exact ⟨⟨hknown.1.1, hbelow, hrest⟩, hfinal⟩
  | inline condition type directives selections rest ihbelow ihrest =>
      simp only [mem_nodesAll_inline, or_imp, forall_and, forall_eq] at hopens hinside
      simp only [usesAll, uses, List.forall_mem_append] at hknown
      obtain ⟨hbelow, hcovers'⟩ := ihbelow hopens.2.1 hinside.2.1 hcovers hknown.1.2
      obtain ⟨hrest, hfinal⟩ := ihrest hopens.2.2 hinside.2.2 hcovers' hknown.2
      simp only [allUses_inline, List.forall_mem_append]
      exact ⟨⟨hknown.1.1, hbelow, hrest⟩, hfinal⟩
  | spread name directives type selections rest ihbelow ihrest =>
      simp only [mem_nodesAll_spread, or_imp, forall_and, forall_eq] at hopens hinside
      obtain ⟨⟨hcontent, hapart⟩, hopensBelow, hopensRest⟩ := hopens
      obtain ⟨hself, hinsideBelow, hinsideRest⟩ := hinside
      simp only [allUses_spread, List.forall_mem_append]
      by_cases hmem : name ∈ entered
      · -- the fragment was entered before and left again, so what is in it is known
        simp only [usesAll, uses, if_pos hmem, List.forall_mem_append] at hknown ⊢
        have hbelow := hcovers.known hmem fun hname => hself name hname rfl
        obtain ⟨hrest, hfinal⟩ := ihrest hopensRest hinsideRest hcovers hknown.2
        exact ⟨⟨hknown.1, hcontent ▸ hbelow, hrest⟩, hfinal⟩
      · simp only [usesAll, uses, if_neg hmem, List.forall_mem_append] at hknown ⊢
        have hinside' : ∀ node ∈ nodesAll selections, ∀ other ∈ name :: inside,
            node.entered? ≠ some other := fun node hnode =>
          List.forall_mem_cons.2 ⟨hapart node hnode, hinsideBelow node hnode⟩
        obtain ⟨hbelow, hentered⟩ := ihbelow hopensBelow hinside' hcovers.enter hknown.1.2
        have hleft := hentered.leave (hcontent ▸ hbelow)
        obtain ⟨hrest, hfinal⟩ := ihrest hopensRest hinsideRest hleft hknown.2
        exact ⟨⟨hknown.1.1, hbelow, hrest⟩, hfinal⟩
  | dangling name directives reason rest ihrest =>
      simp only [mem_nodesAll_dangling, or_imp, forall_and, forall_eq] at hopens hinside
      obtain ⟨hcontent, hopensRest⟩ := hopens
      obtain ⟨hself, hinsideRest⟩ := hinside
      rw [Opens] at hcontent
      simp only [allUses_dangling, List.forall_mem_append, List.forall_mem_cons]
      by_cases hmem : name ∈ entered
      · simp only [usesAll, uses, if_pos hmem, List.forall_mem_append] at hknown ⊢
        have hfault := hcovers.known hmem fun hname => hself name hname rfl
        rw [hcontent, List.forall_mem_singleton] at hfault
        obtain ⟨hrest, hfinal⟩ := ihrest hopensRest hinsideRest hcovers hknown.2
        exact ⟨⟨hknown.1, hfault, hrest⟩, hfinal⟩
      · simp only [usesAll, uses, if_neg hmem, List.forall_mem_append] at hknown ⊢
        have hleft : Covers Known content inside (entered ++ [name]) :=
          hcovers.enter.leave (hcontent ▸ hknown.1.2)
        obtain ⟨hrest, hfinal⟩ := ihrest hopensRest hinsideRest hleft hknown.2
        exact ⟨⟨hknown.1.1, List.forall_mem_singleton.1 hknown.1.2, hrest⟩, hfinal⟩

/-- The search finds nothing but uses in the selections, whatever was entered before. -/
theorem usesAll_subset_allUses (entered : List Name) :
    (usesAll schema entered selections).1 ⊆ allUses schema selections := by
  induction selections using Resolved.forest_induction generalizing entered with
  | nil => exact List.nil_subset _
  | field parent node definition selections rest ihbelow ihrest =>
      rw [allUses_field, usesAll, uses, List.append_assoc]
      exact append_subset_append (List.Subset.refl _)
        (append_subset_append (ihbelow entered) (ihrest _))
  | inline condition type directives selections rest ihbelow ihrest =>
      rw [allUses_inline, usesAll, uses, List.append_assoc]
      exact append_subset_append (List.Subset.refl _)
        (append_subset_append (ihbelow entered) (ihrest _))
  | spread name directives type selections rest ihbelow ihrest =>
      rw [allUses_spread, usesAll, uses]
      split
      · exact append_subset_append (List.Subset.refl _)
          (List.subset_append_of_subset_right _ (ihrest entered))
      · rw [List.append_assoc]
        exact append_subset_append (List.Subset.refl _)
          (append_subset_append (ihbelow _) (ihrest _))
  | dangling name directives reason rest ihrest =>
      rw [allUses_dangling, usesAll, uses]
      split
      · exact append_subset_append (List.Subset.refl _)
          (List.subset_cons_of_subset _ (ihrest entered))
      · rw [List.append_assoc]
        exact append_subset_append (List.Subset.refl _) (List.cons_subset_cons _ (ihrest _))

end Resolved

/-! ## Resolved fragments -/

namespace Library

variable {library : Library} {schema : Schema}

/-- The selections of a fragment that does not spread itself never ask to enter it. -/
theorem Resolution.entered?_ne {entry : Entry} {below : List Resolved}
    (h : library.Resolution schema entry.fragment.onType entry.fragment.selections below)
    {name : Name} (hentry : library.entry? name = some entry)
    (hself : ¬Relation.TransGen library.Spreads name name) :
    ∀ node ∈ Resolved.nodesAll below, node.entered? ≠ some name := by
  have hundefined : ∀ node ∈ Resolved.nodesAll below, ∀ other directives reason,
      node = .dangling other directives reason → library.entry? other = none := by
    refine h.forall_mem_nodesAll (by simp) (by simp) (by simp) ?_
    intro undefined written hnone other directives reason heq
    injection heq with hname
    rwa [← hname]
  intro node hnode hentered
  cases node with
  | field parent node definition selections => nomatch hentered
  | inline condition type directives selections => nomatch hentered
  | spread other directives type selections =>
      obtain rfl := Option.some.inj hentered
      obtain ⟨first, hfirst, hpath⟩ := h.exists_path hnode
      exact hself (.head' ⟨entry, hentry, hfirst⟩ hpath)
  | dangling other directives reason =>
      obtain rfl := Option.some.inj hentered
      rw [hundefined _ hnode other directives reason rfl] at hentry
      nomatch hentry

/-- What there is to find in each fragment: the uses in what it is resolved to, and a fault if there
is no such fragment. -/
theorem exists_content (library : Library) (schema : Schema) : ∃ content : Name → List Use,
    (∀ name entry below, library.entry? name = some entry →
      library.Resolution schema entry.fragment.onType entry.fragment.selections below →
      content name = Resolved.allUses schema below) ∧
    ∀ name, library.entry? name = none →
      content name = [.fault (Dangling.undefined.error name)] := by
  have hname : ∀ name, ∃ uses,
      (∀ entry below, library.entry? name = some entry →
        library.Resolution schema entry.fragment.onType entry.fragment.selections below →
        uses = Resolved.allUses schema below) ∧
      (library.entry? name = none → uses = [.fault (Dangling.undefined.error name)]) := by
    intro name
    by_cases hresolved : ∃ entry below, library.entry? name = some entry ∧
        library.Resolution schema entry.fragment.onType entry.fragment.selections below
    · obtain ⟨entry, below, hentry, hbelow⟩ := hresolved
      refine ⟨Resolved.allUses schema below, fun entry' below' hentry' hbelow' => ?_,
        by simp [hentry]⟩
      obtain rfl := Option.some.inj (hentry.symm.trans hentry')
      rw [hbelow.unique hbelow']
    · exact ⟨_, fun entry below hentry hbelow => absurd ⟨entry, below, hentry, hbelow⟩ hresolved,
        fun _ => rfl⟩
  choose content hcontent using hname
  exact ⟨content, fun name => (hcontent name).1, fun name => (hcontent name).2⟩

variable {parent : Name} {written : List Selection} {resolved : List Resolved}

/-- Wherever a fragment is spread, entering it finds the same uses. -/
theorem Resolution.exists_opens (h : library.Resolution schema parent written resolved)
    (hacyclic : library.AcyclicBelow written) :
    ∃ content, ∀ node ∈ Resolved.nodesAll resolved, node.Opens schema content := by
  obtain ⟨content, hdefined, hundefined⟩ := library.exists_content schema
  have hopens : ∀ node ∈ Resolved.nodesAll resolved,
      (∀ name directives type below, node = .spread name directives type below →
        ¬Relation.TransGen library.Spreads name name) → node.Opens schema content := by
    refine h.forall_mem_nodesAll (fun _ _ _ _ _ _ => trivial) (fun _ _ _ _ _ => trivial) ?_ ?_
    · intro name directives entry below hentry hbelow hself
      exact ⟨hdefined name entry below hentry hbelow,
        hbelow.entered?_ne hentry (hself name directives _ below rfl)⟩
    · intro name directives hnone _
      exact hundefined name hnone
  refine ⟨content, fun node hnode => hopens node hnode ?_⟩
  rintro name directives type below rfl
  obtain ⟨first, hfirst, hpath⟩ := h.exists_path hnode
  exact hacyclic first hfirst name hpath

end Library

/-- The search for variables finds every use in the selections. -/
theorem Linked.LinkedFrom.allUses_subset_usesAll {schema : Schema}
    {documents accompanying : List Document} {linked : Linked}
    (hfrom : LinkedFrom schema documents accompanying linked)
    (hacyclic : linked.library.Acyclic) {parent : Name} {written : List Selection}
    {resolved : List Resolved}
    (h : linked.library.Resolution schema parent written resolved) :
    Resolved.allUses linked.schema resolved ⊆ (Resolved.usesAll linked.schema [] resolved).1 := by
  rw [hfrom.schema_eq]
  obtain ⟨content, hopens⟩ := h.exists_opens (hacyclic.below written)
  exact (Resolved.known_of_mem_allUses hopens (fun _ _ _ hname => absurd hname List.not_mem_nil)
    (fun _ hname => absurd hname List.not_mem_nil) fun _ hfound => hfound).1

/-! ## Types of variables -/

namespace Inference

variable {fragment : Name}

/-- Taking a use into account gives its variable the type of the position, or one that suits this
position and those before. -/
theorem record_eq_ok {types result : List (Name × TypeRef)} {use : Use}
    (h : record fragment types use = .ok result) :
    ∃ name type both, use = .typed name type ∧ result = put name both types ∧
      (types.lookup name = none ∧ both = type ∨
        ∃ known, types.lookup name = some known ∧ known.meet? type = some both) := by
  cases use with
  | fault error => cases h
  | untyped name => cases h
  | typed name type =>
      rw [record] at h
      split at h
      · next hnone =>
          obtain rfl := Except.ok.inj h
          exact ⟨name, type, type, rfl, (put_of_lookup_eq_none type hnone).symm, .inl ⟨hnone, rfl⟩⟩
      · next known hknown =>
          split at h
          · cases h
          · next both hboth =>
              obtain rfl := Except.ok.inj h
              exact ⟨name, type, both, rfl, rfl, .inr ⟨known, hknown, hboth⟩⟩

/-- The variables that are used, each with the least strict of the types that are as strict as all
positions of the variable. -/
structure TypesOf (uses : List Use) (types : List (Name × TypeRef)) : Prop where
  nodup : (types.map Prod.fst).Nodup
  names_subset : Use.names uses ⊆ types.map Prod.fst
  used : ∀ {name type}, types.lookup name = some type → ∃ position, .typed name position ∈ uses
  le_iff : ∀ {name type}, types.lookup name = some type → ∀ {other}, other ≤ type ↔
    ∀ position, .typed name position ∈ uses → other ≤ position

namespace TypesOf

variable {uses : List Use} {types : List (Name × TypeRef)}

theorem nil : TypesOf [] [] := by
  constructor <;> simp [Use.names]

theorem exists_lookup (h : TypesOf uses types) {name : Name} {position : TypeRef}
    (hused : .typed name position ∈ uses) : ∃ type, types.lookup name = some type := by
  have hname : name ∈ types.map Prod.fst := h.names_subset (Use.mem_names.2 ⟨_, hused, rfl⟩)
  exact exists_lookup_of_exists_mem (List.mem_map.1 hname)

/-- Taking one more use into account. -/
theorem record (h : TypesOf uses types) {use : Use} {result : List (Name × TypeRef)}
    (hrecord : record fragment types use = .ok result) : TypesOf (uses ++ [use]) result := by
  obtain ⟨name, type, both, rfl, rfl, hboth⟩ := record_eq_ok hrecord
  have hle : ∀ {other}, other ≤ both ↔
      (∀ position, .typed name position ∈ uses → other ≤ position) ∧ other ≤ type := by
    intro other
    rcases hboth with ⟨hnone, rfl⟩ | ⟨known, hknown, hmeet⟩
    · -- the first use of the variable
      refine (and_iff_right fun position hposition => ?_).symm
      obtain ⟨found, hfound⟩ := h.exists_lookup hposition
      rw [hnone] at hfound
      cases hfound
    · rw [TypeRef.le_meet?_iff hmeet, h.le_iff hknown]
  constructor
  · rw [keys_put]
    exact nodup_insertNew h.nodup name
  · rw [keys_put, Use.names_append]
    intro other hother
    rw [mem_insertNew]
    rcases List.mem_append.1 hother with hother | hother
    · exact .inl (h.names_subset hother)
    · exact .inr (List.mem_singleton.1 hother)
  · intro other found hfound
    rw [lookup_put] at hfound
    split_ifs at hfound with hsame
    · exact ⟨type, by simp [hsame]⟩
    · obtain ⟨position, hposition⟩ := h.used hfound
      exact ⟨position, List.mem_append_left _ hposition⟩
  · intro other found hfound lower
    rw [lookup_put] at hfound
    split_ifs at hfound with hsame
    · obtain rfl := Option.some.inj hfound
      simp [hsame, hle, or_imp, forall_and]
    · simp [hsame, h.le_iff hfound]

/-- Taking all uses into account. -/
theorem recordAll {before : List Use} (h : TypesOf before types) {result : List (Name × TypeRef)}
    (hrecord : recordAll fragment types uses = .ok result) : TypesOf (before ++ uses) result := by
  induction uses generalizing before types with
  | nil =>
      obtain rfl := Except.ok.inj hrecord
      rwa [List.append_nil]
  | cons use rest ih =>
      obtain ⟨types', hfirst, hrest⟩ := except_bind_eq_ok.1 hrecord
      rw [List.append_cons]
      exact ih (h.record hfirst) hrest

end TypesOf

theorem typesOf_infer {schema : Schema} {body : List Resolved} {types : List (Name × TypeRef)}
    (h : infer schema fragment body = .ok types) :
    TypesOf (Resolved.usesAll schema [] body).1 types :=
  TypesOf.nil.recordAll h

end Inference

end ResponseModel
