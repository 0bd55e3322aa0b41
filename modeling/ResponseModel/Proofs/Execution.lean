import ResponseModel.Proofs.TypewiseCollection

/-!
# Executing selections

What a server selects under given values of the variables: on an object of a concrete type it
enters a fragment if the type is possible for its type condition, and it takes a selection only if
the `@skip` and `@include` on it allow it.  A step of execution is a step of the collection type by
type, without the branches whose condition fails (`survivors_next`).  Main statement:
`holds_condition_of_selects`, the conditions in a tree never hide a field that is selected, and a
condition is `never` only if nothing selects the field.
-/

namespace ResponseModel

/-! ## Directives -/

/-- The truth value of a literal that is a boolean or a variable. -/
def Literal.truth? (values : Name → Bool) : Literal → Option Bool
  | .boolean value => some value
  | .var name => some (values name)
  | _ => none

/-- Whether a directive allows its selection: `@skip` does unless its argument is true, `@include`
unless its argument is false. -/
def Directive.allows (values : Name → Bool) (directive : Directive) : Bool :=
  match directive.arguments with
  | [(_, value)] =>
      if directive.name = "skip" then value.truth? values != some true
      else if directive.name = "include" then value.truth? values != some false
      else true
  | _ => true

theorem Literal.holds_demand (values : Name → Bool) (skip : Bool) (literal : Literal) :
    (literal.demand skip).holds values = (literal.truth? values != some skip) := by
  cases literal with
  | boolean value => cases value <;> cases skip <;> rfl
  | var name =>
      show (values name != skip) = (some (values name) != some skip)
      cases values name <;> cases skip <;> rfl
  | _ => rfl

theorem Directive.holds_demand (values : Name → Bool) (directive : Directive) :
    directive.demand.holds values = directive.allows values := by
  obtain ⟨name, arguments⟩ := directive
  match arguments with
  | [] =>
      rw [Directive.demand, ite_self]
      rfl
  | [(_, value)] =>
      by_cases hskip : name = "skip"
      · subst hskip
        exact value.holds_demand values true
      by_cases hinclude : name = "include"
      · subst hinclude
        exact value.holds_demand values false
      · simp [Directive.demand, Directive.allows, hskip, hinclude, Condition.holds]
  | _ :: _ :: _ =>
      rw [Directive.demand, ite_self]
      rfl

/-- What directives ask for holds exactly if all of them allow the selection. -/
@[simp] theorem Condition.holds_asked (values : Name → Bool) (directives : List Directive) :
    (Condition.asked directives).holds values = directives.all (Directive.allows values) := by
  rw [Condition.asked, Condition.holds_all, List.all_map]
  exact congrArg directives.all (funext fun directive => directive.holds_demand values)

/-! ## Execution -/

namespace Execution

mutual

/-- The fields that a selection gives on an object of a concrete type: their response names and
what is selected below them. -/
def ofSelection (schema : Schema) (values : Name → Bool) (concrete : Name) :
    Resolved → List (Name × List Resolved)
  | .field _ node _ selections =>
      if node.directives.all (Directive.allows values) then [(node.responseName, selections)]
      else []
  | .inline written _ directives selections =>
      if directives.all (Directive.allows values) ∧
          ∀ type ∈ written, schema.Possible type concrete then
        ofSelections schema values concrete selections
      else []
  | .spread _ directives type selections =>
      if directives.all (Directive.allows values) ∧ schema.Possible type concrete then
        ofSelections schema values concrete selections
      else []
  | .dangling .. => []

/-- The fields that a selection set gives on an object of a concrete type. -/
def ofSelections (schema : Schema) (values : Name → Bool) (concrete : Name) :
    List Resolved → List (Name × List Resolved)
  | [] => []
  | selection :: rest =>
      ofSelection schema values concrete selection ++ ofSelections schema values concrete rest

end

/-- The selection sets below a response name, on an object of a concrete type. -/
def next (schema : Schema) (values : Name → Bool) (state : List (List Resolved))
    (step : Name × Name) : List (List Resolved) :=
  ((state.flatMap (ofSelections schema values step.1)).filter (·.1 = step.2)).map Prod.snd

/-- Each response name of a walk is selected, on an object of the concrete type before it. -/
def Selects (schema : Schema) (values : Name → Bool) :
    List (List Resolved) → List (Name × Name) → Prop
  | _, [] => True
  | state, step :: rest =>
      next schema values state step ≠ [] ∧
        Selects schema values (next schema values state step) rest

instance decidableSelects (schema : Schema) (values : Name → Bool) :
    ∀ (state : List (List Resolved)) (route : List (Name × Name)),
      Decidable (Selects schema values state route)
  | _, [] => inferInstanceAs (Decidable True)
  | state, step :: rest =>
      have := decidableSelects schema values (next schema values state step) rest
      inferInstanceAs (Decidable (_ ≠ [] ∧ _))

/-! ## Execution and collection -/

variable {schema : Schema} {values : Name → Bool}

/-- A fragment that is entered on a condition `p` on types: what is executed in it is what survives
of what is collected in it. -/
theorem fragment_eq {p : Prop} [Decidable p] {concrete : Name} {selections : List Resolved}
    (ih : ∀ condition : Condition,
      ((Typewise.ofSelections schema concrete condition selections).filter
          (·.condition.holds values)).map (fun o => (o.responseName, o.selections)) =
        if condition.holds values then ofSelections schema values concrete selections else [])
    (condition : Condition) (directives : List Directive) :
    ((if p then Typewise.ofSelections schema concrete
          (condition.and (Condition.asked directives)) selections else []).filter
        (·.condition.holds values)).map (fun o => (o.responseName, o.selections)) =
      if condition.holds values then
        if directives.all (Directive.allows values) ∧ p then
          ofSelections schema values concrete selections
        else []
      else [] := by
  by_cases hp : p
  · rw [if_pos hp, ih, Condition.holds_and, Condition.holds_asked]
    cases condition.holds values <;>
      cases hallowed : directives.all (Directive.allows values) <;> simp [hp]
  · have hnot : ¬(directives.all (Directive.allows values) = true ∧ p) := fun h => hp h.2
    rw [if_neg hp, if_neg hnot, ite_self]
    rfl

/-- Executing gives the collected occurrences whose condition holds, if the condition around the
selections does. -/
theorem ofSelections_eq (concrete : Name) (condition : Condition) (selections : List Resolved) :
    ((Typewise.ofSelections schema concrete condition selections).filter
        (·.condition.holds values)).map (fun o => (o.responseName, o.selections)) =
      if condition.holds values then ofSelections schema values concrete selections else [] := by
  induction selections using Resolved.forest_induction generalizing condition with
  | nil => simp [Typewise.ofSelections, ofSelections]
  | field parent node definition selections rest _ ihrest =>
      rw [Typewise.ofSelections, Typewise.ofSelection, ofSelections, ofSelection,
        List.filter_append, List.map_append, ihrest]
      cases hcondition : condition.holds values <;>
        cases hallowed : node.directives.all (Directive.allows values) <;>
        simp [hcondition, hallowed, Occurrence.responseName]
  | inline written type directives selections rest ihbelow ihrest =>
      rw [Typewise.ofSelections, Typewise.ofSelection, ofSelections, ofSelection,
        List.filter_append, List.map_append, ihrest, fragment_eq ihbelow]
      cases condition.holds values <;> rfl
  | spread name directives type selections rest ihbelow ihrest =>
      rw [Typewise.ofSelections, Typewise.ofSelection, ofSelections, ofSelection,
        List.filter_append, List.map_append, ihrest, fragment_eq ihbelow]
      cases condition.holds values <;> rfl
  | dangling name directives reason rest ihrest =>
      rw [Typewise.ofSelections, Typewise.ofSelection, ofSelections, ofSelection,
        List.nil_append, List.nil_append, ihrest]

/-- The selection sets of the branches whose condition holds. -/
def survivors (values : Name → Bool) (state : List Branch) : List (List Resolved) :=
  (state.filter (·.2.holds values)).map Prod.fst

theorem occurrences_survivors (concrete : Name) (state : List Branch) :
    ((Typewise.occurrences schema concrete state).filter (·.condition.holds values)).map
        (fun o => (o.responseName, o.selections)) =
      (survivors values state).flatMap (ofSelections schema values concrete) := by
  induction state with
  | nil => rfl
  | cons branch rest ih =>
      rw [Typewise.occurrences, List.flatMap_cons, List.filter_append, List.map_append,
        ofSelections_eq, ← Typewise.occurrences, ih, survivors, survivors, List.filter_cons]
      by_cases hholds : branch.2.holds values = true
      · rw [if_pos hholds, if_pos hholds, List.map_cons, List.flatMap_cons]
      · rw [if_neg hholds, if_neg hholds, List.nil_append]

/-- One step of execution is one step of collection, without the branches whose condition
fails. -/
theorem survivors_next (state : List Branch) (step : Name × Name) :
    survivors values (Typewise.next schema state step) =
      next schema values (survivors values state) step := by
  rw [next, ← occurrences_survivors, Typewise.next, survivors, List.filter_map, List.filter_map,
    List.map_map, List.map_map, List.filter_filter, List.filter_filter]
  exact congrArg (List.map _) (List.filter_congr fun o _ => Bool.and_comm _ _)

theorem next_nil (step : Name × Name) : next schema values [] step = [] := rfl

/-- A walk is selected if something is left of what is collected at its end. -/
theorem selects_survivors_iff {state : List Branch} (h : survivors values state ≠ [])
    (route : List (Name × Name)) :
    Selects schema values (survivors values state) route ↔
      survivors values (Typewise.along schema state route) ≠ [] := by
  have hnil : ∀ (route : List (Name × Name)) (state : List Branch), survivors values state = [] →
      survivors values (Typewise.along schema state route) = [] := by
    intro route
    induction route with
    | nil => exact fun state h => h
    | cons step rest ih =>
        intro state h
        refine ih _ ?_
        rw [survivors_next, h, next_nil]
  induction route generalizing state with
  | nil => exact ⟨fun _ => h, fun _ => trivial⟩
  | cons step rest ih =>
      rw [Selects, ← survivors_next]
      by_cases hstep : survivors values (Typewise.next schema state step) = []
      · exact ⟨fun hselects => absurd hstep hselects.1,
          fun hend => absurd (hnil rest _ hstep) hend⟩
      · exact ⟨fun hselects => (ih hstep).1 hselects.2, fun hend => ⟨hstep, (ih hstep).2 hend⟩⟩

theorem survivors_ne_nil_iff {state : List Branch} :
    survivors values state ≠ [] ↔ ∃ branch ∈ state, branch.2.holds values = true := by
  rw [survivors, ne_eq, List.map_eq_nil_iff, List.filter_eq_nil_iff]
  push Not
  rfl

end Execution

/-! ## Conditions that can hold -/

namespace Typewise

variable {schema : Schema}

/-- The condition of a collected occurrence is a conjunction, so that it can hold unless it is
`never`. -/
theorem satisfiable_of_mem_next {state : List Branch} {step : Name × Name} :
    ∀ branch ∈ next schema state step, branch.2 ≠ .never → branch.2.Satisfiable := by
  intro branch hbranch
  obtain ⟨o, ho, rfl⟩ := List.mem_map.1 hbranch
  obtain ⟨origin, -, ho⟩ := List.mem_flatMap.1 (List.mem_filter.1 ho).1
  exact forall_mem_ofSelections (P := fun _ o => o.condition ≠ .never → o.condition.Satisfiable)
    (fun _ _ _ _ _ _ => Condition.satisfiable_all) (fun _ _ _ _ _ _ h => h)
    (fun _ _ _ _ _ _ h => h) (fun _ _ _ h => h) o ho

theorem satisfiable_of_mem_along {state : List Branch} {route : List (Name × Name)}
    (h : ∀ branch ∈ state, branch.2 ≠ .never → branch.2.Satisfiable) :
    ∀ branch ∈ along schema state route, branch.2 ≠ .never → branch.2.Satisfiable := by
  induction route generalizing state with
  | nil => exact h
  | cons step rest ih => exact ih satisfiable_of_mem_next

end Typewise

/-! ## Conditions along a walk -/

namespace Builder

variable {builder : Builder} {values : Name → Bool}

/-- The condition of a field holds if something is left of the branches that it is built from. -/
theorem BuiltFrom.holds_condition {state : List Branch} {field : Field}
    (h : builder.BuiltFrom state field) (hstate : Execution.survivors values state ≠ []) :
    field.condition.holds values = true := by
  obtain ⟨branch, hbranch, hholds⟩ := Execution.survivors_ne_nil_iff.1 hstate
  rw [h.condition]
  exact Condition.holds_any_of_mem (List.mem_map_of_mem hbranch) hholds

/-- The condition of a field is `never` exactly if nothing is ever left of the branches that it is
built from. -/
theorem BuiltFrom.condition_eq_never_iff {state : List Branch} {field : Field}
    (h : builder.BuiltFrom state field)
    (hstate : ∀ branch ∈ state, branch.2 ≠ .never → branch.2.Satisfiable) :
    field.condition = .never ↔ ∀ values, Execution.survivors values state = [] := by
  have hconditions : ∀ condition ∈ state.map Prod.snd,
      condition ≠ .never → condition.Satisfiable := by
    intro condition hcondition
    obtain ⟨branch, hbranch, rfl⟩ := List.mem_map.1 hcondition
    exact hstate branch hbranch
  rw [h.condition, Condition.any_eq_never_iff hconditions]
  constructor
  · intro hnever values
    by_contra hleft
    obtain ⟨branch, hbranch, hholds⟩ := Execution.survivors_ne_nil_iff.1 hleft
    rw [hnever branch.2 (List.mem_map_of_mem hbranch)] at hholds
    exact Bool.false_ne_true hholds
  · intro hnone condition hcondition
    by_contra hnever
    obtain ⟨branch, hbranch, rfl⟩ := List.mem_map.1 hcondition
    obtain ⟨values, hvalues⟩ := hstate branch hbranch hnever
    exact Execution.survivors_ne_nil_iff.2 ⟨branch, hbranch, hvalues⟩ (hnone values)

/-- A response name that is selected has a field in the shape of the concrete type. -/
theorem BuiltFrom.exists_step {state : List Branch} {field : Field} {step : Name × Name}
    (h : builder.BuiltFrom state field) (hc : field.CanHold builder.schema step.1)
    (hnext : Typewise.next builder.schema state step ≠ []) :
    ∃ sub, field.step? step = some sub := by
  obtain ⟨shape, hshape, hnames, -⟩ := h.shape hc
  obtain ⟨branch, hbranch⟩ := List.exists_mem_of_ne_nil _ hnext
  obtain ⟨o, ho, -⟩ := List.mem_map.1 hbranch
  rw [List.mem_filter, decide_eq_true_eq] at ho
  have hname : step.2 ∈ shape.fields.map Field.responseName := by
    rw [hnames, Typewise.responseNames, mem_distinct, ← ho.2]
    exact List.mem_map_of_mem ho.1
  rw [Field.step?, hshape, Option.bind_some, ← Option.isSome_iff_exists]
  exact ShapeOf.isSome_field?.2 hname

/-- Every field on a walk that is selected is in the tree, and its condition holds. -/
theorem BuiltFrom.follow_of_selects {state : List Branch} {field : Field}
    {route : List (Name × Name)} (h : builder.BuiltFrom state field)
    (hroute : field.Admits builder.schema route)
    (hstate : Execution.survivors values state ≠ [])
    (hselects : Execution.Selects builder.schema values (Execution.survivors values state) route)
    {before : List (Name × Name)} (hbefore : before <+: route) :
    ∃ last, field.follow before = some last ∧ last.condition.holds values = true := by
  induction route generalizing state field before with
  | nil =>
      rw [List.prefix_nil] at hbefore
      rw [hbefore]
      exact ⟨field, rfl, h.holds_condition hstate⟩
  | cons step rest ih =>
      cases before with
      | nil => exact ⟨field, rfl, h.holds_condition hstate⟩
      | cons first before =>
          obtain ⟨rfl, htail⟩ := List.cons_prefix_cons.1 hbefore
          rw [Execution.Selects, ← Execution.survivors_next] at hselects
          have hnext : Typewise.next builder.schema state first ≠ [] := by
            intro hnil
            rw [hnil] at hselects
            exact hselects.1 rfl
          obtain ⟨sub, hsub⟩ := h.exists_step hroute.1 hnext
          rw [Field.follow_cons, hsub]
          exact ih (h.step hroute.1 hsub) (hroute.2 sub hsub) hselects.1 hselects.2 htail

end Builder

/-- **Conditions never hide a field that is selected.**  Walk through the tree of an operation or a
fragment by concrete types and response names, each type possible for the field reached before it
(`Field.Admits`).  If executing the selections under some values of the variables selects every
response name of the walk, then every field on the walk is in the tree and its condition holds under
these values.  The condition of the field at the end is `never` exactly if no values select it on
this walk. -/
theorem holds_condition_of_selects {options : Options} {schema : Schema}
    {documents accompanying : List Document}
    {linked : Linked} {config : Config} {model : Model}
    (hlink : Linked.ofDocuments options schema documents accompanying = .ok linked)
    (hbuild : (linked.build config).result = .ok model)
    (hdocuments : ∀ document ∈ documents ++ accompanying, document.conditioned = true)
    {selections : List Resolved} {data : Field} (htop : linked.IsTop model selections data)
    {route : List (Name × Name)} (hroute : data.Admits schema route) :
    (∀ values, Execution.Selects schema values [selections] route → ∀ before, before <+: route →
      ∃ field, data.follow before = some field ∧ field.condition.holds values = true) ∧
    ∀ field, data.follow route = some field →
      (field.condition = .never ↔
        ∀ values, ¬Execution.Selects schema values [selections] route) := by
  obtain ⟨builder, rfl, type, root, hdata⟩ := htop.dataFieldFrom hlink hbuild
  have hbuilt := hdata.builtFrom (htop.conditionedAll hlink hdocuments)
  have hstart : ∀ values, Execution.survivors values [(selections, .always)] = [selections] :=
    fun _ => rfl
  have hne : ∀ values, Execution.survivors values [(selections, .always)] ≠ [] :=
    fun _ => List.cons_ne_nil _ _
  constructor
  · intro values hselects before hbefore
    exact hbuilt.follow_of_selects hroute (hne values) (hstart values ▸ hselects) hbefore
  · intro field hfield
    have hstate : ∀ branch ∈ Typewise.along builder.schema [(selections, .always)] route,
        branch.2 ≠ .never → branch.2.Satisfiable := by
      refine Typewise.satisfiable_of_mem_along fun branch hbranch _ => ?_
      rw [List.mem_singleton] at hbranch
      rw [hbranch]
      exact ⟨fun _ => true, rfl⟩
    rw [(hbuilt.follow hroute hfield).condition_eq_never_iff hstate]
    refine forall_congr' fun values => ?_
    rw [← hstart values, Execution.selects_survivors_iff (hne values), not_not]

/-- The route to the name of the mate of a cat. -/
def Sample.mateName : List (Name × Name) := [("Query", "pet"), ("Cat", "mate"), ("Dog", "name")]

theorem holds_condition_of_selects_brief :
    Sample.document.conditioned = true ∧ Sample.data.Admits Sample.schema Sample.mateName ∧
    Execution.Selects Sample.schema (fun _ => true) [Sample.selections] Sample.mateName ∧
    ∃ name, Sample.data.follow Sample.mateName = some name ∧
      name.condition.holds (fun _ => true) = true ∧ name.condition ≠ .never := by
  have hdocument : Sample.document.conditioned = true := by decide +kernel
  have hroute : Sample.data.Admits Sample.schema Sample.mateName := by decide +kernel
  have hselects : Execution.Selects Sample.schema (fun _ => true) [Sample.selections]
      Sample.mateName := by
    decide +kernel
  obtain ⟨hholds, hnever⟩ := holds_condition_of_selects Sample.ofDocuments_eq Sample.build_eq
    (by simpa using hdocument) Sample.isTop hroute
  obtain ⟨name, hname, hcondition⟩ := hholds _ hselects Sample.mateName (List.prefix_refl _)
  exact ⟨hdocument, hroute, hselects, name, hname, hcondition,
    fun h => (hnever name hname).1 h _ hselects⟩

end ResponseModel
