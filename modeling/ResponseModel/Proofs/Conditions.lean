import ResponseModel.Condition
import ResponseModel.Proofs.Success
import ResponseModel.Proofs.TypeSets

/-!
# The meaning of conditions

A condition holds or fails under values of the variables.  Conjunction is exact (`holds_all`), and
a conjunction is `never` only if no values make it hold (`satisfiable_all`), because its terms have
different variables.  Merging branches is not exact, but every branch implies the result
(`holds_any_of_mem`), and the result is `never` only if every branch is (`any_eq_never_iff`).
-/

namespace ResponseModel

namespace Condition

/-- Whether the variable of the term has the value that is asked for. -/
def Term.holds (values : Name → Bool) (term : Term) : Bool := values term.name != term.negated

/-- Whether the condition holds under values of the variables. -/
def holds (values : Name → Bool) : Condition → Bool
  | .always => true
  | .never => false
  | .one term => term.holds values
  | .conj terms => terms.all (Term.holds values)

/-- Some values make the condition hold. -/
def Satisfiable (condition : Condition) : Prop := ∃ values, condition.holds values = true

/-- Whether there are terms and all of them hold. -/
def termsHold (values : Name → Bool) : Option (List Term) → Bool
  | none => false
  | some terms => terms.all (Term.holds values)

variable {values : Name → Bool}

theorem holds_eq_termsHold (condition : Condition) :
    condition.holds values = termsHold values condition.terms? := by
  cases condition <;> simp [holds, termsHold, terms?]

@[simp] theorem terms?_ofTerms (terms : List Term) : (ofTerms terms).terms? = some terms := by
  match terms with
  | [] => rfl
  | [_] => rfl
  | _ :: _ :: _ => rfl

/-! ## Conjunction -/

/-- Terms on one variable that ask for different values do not hold together. -/
theorem Term.holds_and_holds_of_ne {term other : Term} (hname : term.name = other.name)
    (hne : term.negated ≠ other.negated) : (term.holds values && other.holds values) = false := by
  rw [Term.holds, Term.holds, hname]
  revert hne
  cases values other.name <;> cases term.negated <;> cases other.negated <;> decide

theorem termsHold_insertTerm? (term : Term) (terms : List Term) :
    termsHold values (insertTerm? term terms) =
      (term.holds values && terms.all (Term.holds values)) := by
  induction terms with
  | nil => rfl
  | cons first rest ih =>
      unfold insertTerm?
      by_cases hlt : term.name < first.name
      · rw [if_pos hlt]
        rfl
      rw [if_neg hlt]
      by_cases hname : term.name = first.name
      · rw [if_pos hname]
        by_cases hsign : term.negated = first.negated
        · have hterm : term = first := by
            cases term; cases first; simp_all
          rw [if_pos hsign, hterm, termsHold, List.all_cons, ← Bool.and_assoc, Bool.and_self]
        · rw [if_neg hsign, List.all_cons, ← Bool.and_assoc,
            Term.holds_and_holds_of_ne hname hsign]
          rfl
      · rw [if_neg hname, List.all_cons, Bool.and_left_comm, ← ih]
        cases insertTerm? term rest with
        | none => simp [termsHold]
        | some sorted => rfl

theorem termsHold_insertTerms? (terms sorted : List Term) :
    termsHold values (insertTerms? terms sorted) =
      (terms.all (Term.holds values) && sorted.all (Term.holds values)) := by
  induction terms with
  | nil => rfl
  | cons term rest ih =>
      rw [insertTerms?, List.all_cons, Bool.and_assoc, ← ih]
      cases insertTerms? rest sorted with
      | none => simp [termsHold]
      | some sorted => exact termsHold_insertTerm? term sorted

theorem termsHold_gather? (conditions : List Condition) :
    termsHold values (gather? conditions) = conditions.all (holds values) := by
  induction conditions with
  | nil => rfl
  | cons condition rest ih =>
      rw [gather?, List.all_cons, ← ih, holds_eq_termsHold]
      cases gather? rest with
      | none => simp [termsHold]
      | some sorted =>
          cases condition.terms? with
          | none => simp [termsHold]
          | some terms => exact termsHold_insertTerms? terms sorted

/-- A conjunction holds exactly if all its members do. -/
@[simp] theorem holds_all (conditions : List Condition) :
    (all conditions).holds values = conditions.all (holds values) := by
  rw [← termsHold_gather?, all]
  cases gather? conditions with
  | none => rfl
  | some terms => rw [holds_eq_termsHold, terms?_ofTerms]

@[simp] theorem holds_and (left right : Condition) :
    (left.and right).holds values = (left.holds values && right.holds values) := by
  simp [and]

/-! ## Satisfiability -/

theorem names_insertTerm? {term : Term} {terms sorted : List Term}
    (h : insertTerm? term terms = some sorted) :
    sorted.map Term.name = TypeSet.insertName term.name (terms.map Term.name) := by
  induction terms generalizing sorted with
  | nil =>
      obtain rfl := Option.some.inj h
      rfl
  | cons first rest ih =>
      rw [List.map_cons, TypeSet.insertName]
      unfold insertTerm? at h
      split_ifs at h ⊢ with hlt hname hsign
      · obtain rfl := Option.some.inj h
        rfl
      · obtain rfl := Option.some.inj h
        rfl
      · obtain ⟨inner, hinner, rfl⟩ := Option.map_eq_some_iff.1 h
        rw [List.map_cons, ih hinner]

theorem pairwise_insertTerms? {terms sorted result : List Term}
    (h : insertTerms? terms sorted = some result)
    (hsorted : (sorted.map Term.name).Pairwise (· < ·)) :
    (result.map Term.name).Pairwise (· < ·) := by
  induction terms generalizing result with
  | nil =>
      obtain rfl := Option.some.inj h
      exact hsorted
  | cons term rest ih =>
      obtain ⟨inner, hinner, h⟩ := Option.bind_eq_some_iff.1 h
      rw [names_insertTerm? h]
      exact TypeSet.pairwise_insertName term.name (ih hinner)

theorem pairwise_gather? {conditions : List Condition} {terms : List Term}
    (h : gather? conditions = some terms) : (terms.map Term.name).Pairwise (· < ·) := by
  induction conditions generalizing terms with
  | nil =>
      obtain rfl := Option.some.inj h
      exact .nil
  | cons condition rest ih =>
      obtain ⟨sorted, hsorted, h⟩ := Option.bind_eq_some_iff.1 h
      obtain ⟨added, -, h⟩ := Option.bind_eq_some_iff.1 h
      exact pairwise_insertTerms? h (ih hsorted)

/-- Terms on different variables hold together: set the variables that are not negated. -/
theorem exists_holds_of_nodup {terms : List Term} (h : (terms.map Term.name).Nodup) :
    ∃ values, terms.all (Term.holds values) = true := by
  refine ⟨fun name => decide (⟨name, false⟩ ∈ terms), List.all_eq_true.2 fun term hterm => ?_⟩
  obtain ⟨name, negated⟩ := term
  cases negated with
  | false => simpa [Term.holds] using hterm
  | true =>
      have hnot : (⟨name, false⟩ : Term) ∉ terms := by
        intro hother
        have heq := List.inj_on_of_nodup_map h hterm hother rfl
        simp at heq
      simpa [Term.holds] using hnot

theorem satisfiable_all {conditions : List Condition} (h : all conditions ≠ .never) :
    (all conditions).Satisfiable := by
  unfold all at h ⊢
  cases hgather : gather? conditions with
  | none =>
      rw [hgather] at h
      exact absurd rfl h
  | some terms =>
      obtain ⟨values, hvalues⟩ := exists_holds_of_nodup ((pairwise_gather? hgather).imp ne_of_lt)
      refine ⟨values, ?_⟩
      rw [holds_eq_termsHold, terms?_ofTerms]
      exact hvalues

/-! ## Merging branches -/

/-- The terms that merged branches keep are terms of every branch that can hold. -/
theorem holds_any_of_mem {branches : List Condition} {branch : Condition} (h : branch ∈ branches)
    (hholds : branch.holds values = true) : (any branches).holds values = true := by
  rw [holds_eq_termsHold] at hholds
  cases hterms : branch.terms? with
  | none =>
      rw [hterms] at hholds
      exact absurd hholds Bool.false_ne_true
  | some terms =>
      rw [hterms, termsHold, List.all_eq_true] at hholds
      have hmem : terms ∈ branches.filterMap terms? := List.mem_filterMap.2 ⟨branch, h, hterms⟩
      unfold any
      split
      · next hnil =>
          rw [hnil] at hmem
          exact absurd hmem List.not_mem_nil
      · next first others hcons =>
          rw [holds_all, List.all_map, List.all_eq_true]
          intro term hterm
          rw [List.mem_filter, List.all_eq_true] at hterm
          rw [hcons] at hmem
          rcases List.mem_cons.1 hmem with rfl | hother
          · exact hholds term hterm.1
          · exact hholds term (of_decide_eq_true (hterm.2 terms hother))

theorem any_eq_never_iff {branches : List Condition}
    (h : ∀ branch ∈ branches, branch ≠ .never → branch.Satisfiable) :
    any branches = .never ↔ ∀ branch ∈ branches, branch = .never := by
  constructor
  · intro hany branch hbranch
    by_contra hne
    obtain ⟨values, hvalues⟩ := h branch hbranch hne
    have hholds := holds_any_of_mem hbranch hvalues
    rw [hany] at hholds
    exact absurd hholds Bool.false_ne_true
  · intro hnever
    have hnil : branches.filterMap terms? = [] := by
      rw [List.filterMap_eq_nil_iff]
      intro branch hbranch
      rw [hnever branch hbranch]
      rfl
    rw [any, hnil]

end Condition

/-! ## Reading directives -/

/-- What the argument of `@skip` or `@include` asks for. -/
def Literal.demand (skip : Bool) : Literal → Condition
  | .boolean value => if value = skip then .never else .always
  | .var name => .one ⟨name, skip⟩
  | _ => .always

/-- What a directive asks for; one that is neither `@skip` nor `@include` asks for nothing. -/
def Directive.demand (directive : Directive) : Condition :=
  if directive.name = "skip" ∨ directive.name = "include" then
    match directive.arguments with
    | [(_, value)] => value.demand (directive.name == "skip")
    | _ => .always
  else .always

/-- What the directives of a selection ask for together. -/
def Condition.asked (directives : List Directive) : Condition :=
  Condition.all (directives.map Directive.demand)

namespace Condition

theorem eq_demand_of_ofArgument {directive : Name} {skip : Bool} {literal : Literal}
    {condition : Condition} (h : ofArgument directive skip literal = .ok condition) :
    condition = literal.demand skip := by
  unfold ofArgument at h
  split at h
  · exact (Except.ok.inj h).symm
  · exact (Except.ok.inj h).symm
  · nomatch h

theorem gather?_always_cons (conditions : List Condition) :
    gather? (.always :: conditions) = gather? conditions := by
  rw [gather?]
  cases gather? conditions <;> rfl

theorem insertTerms?_nil {terms : List Term} (h : (terms.map Term.name).Pairwise (· < ·)) :
    insertTerms? terms [] = some terms := by
  induction terms with
  | nil => rfl
  | cons term rest ih =>
      rw [List.map_cons, List.pairwise_cons] at h
      rw [insertTerms?, ih h.2, Option.bind_some]
      cases rest with
      | nil => rfl
      | cons next rest => rw [insertTerm?, if_pos (h.1 next.name List.mem_cons_self)]

/-- A conjunction is in its one form. -/
theorem simplify_all (conditions : List Condition) :
    (all conditions).simplify = all conditions := by
  have hgather : gather? [all conditions] = gather? conditions := by
    unfold all
    cases h : gather? conditions with
    | none => rfl
    | some terms =>
        rw [gather?, gather?, Option.bind_some, terms?_ofTerms, Option.bind_some]
        exact insertTerms?_nil (pairwise_gather? h)
  rw [simplify, all, hgather, all]

theorem and_always (condition : Condition) : condition.and .always = condition.simplify := by
  have hgather : gather? [condition, .always] = gather? [condition] := by
    rw [gather?, gather?_always_cons]
    rfl
  rw [and, simplify, all, hgather, all]

theorem gather?_of_readDirectives {selection : String} {seen : List Name}
    {directives : List Directive} {conditions : List Condition}
    (h : readDirectives selection seen directives = .ok conditions) :
    gather? conditions = gather? (directives.map Directive.demand) := by
  induction directives generalizing seen conditions with
  | nil =>
      obtain rfl := Except.ok.inj h
      rfl
  | cons directive rest ih =>
      rw [List.map_cons]
      unfold readDirectives at h
      split at h
      · next hname =>
          split at h
          · nomatch h
          · split at h
            · next value harguments =>
                obtain ⟨own, hown, h⟩ := except_bind_eq_ok.1 h
                obtain ⟨others, hothers, h⟩ := except_bind_eq_ok.1 h
                obtain rfl := Except.ok.inj h
                have hdemand : directive.demand = own := by
                  rw [Directive.demand, if_pos hname, harguments, eq_demand_of_ofArgument hown]
                rw [hdemand, gather?, gather?, ih hothers]
            · nomatch h
      · next hname =>
          have hdemand : directive.demand = .always := by rw [Directive.demand, if_neg hname]
          rw [hdemand, gather?_always_cons, ih h]

/-- Directives that can be read ask for what each of them asks for. -/
theorem eq_asked_of_ofDirectives {directives : List Directive} {selection : String}
    {condition : Condition} (h : ofDirectives directives selection = .ok condition) :
    condition = asked directives := by
  obtain ⟨conditions, hread, rfl⟩ := except_map_eq_ok.1 h
  rw [asked, all, all, gather?_of_readDirectives hread]

end Condition

end ResponseModel
