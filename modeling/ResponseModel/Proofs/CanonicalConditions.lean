import ResponseModel.Proofs.Strengthening

/-!
# Canonical conditions

A condition is canonical if it is `always`, `never`, one term, or a conjunction of at least two
terms whose variables are strictly increasing.  Every conjunction is canonical, whatever it is made
from (`canonical_all`), so that nothing else can be made at all (`Made.canonical`).

A canonical condition is determined by its values: it implies a term only if it has that term
(`mem_of_holds_of_holds`), because the variable of any other term can be set against the term
without touching the rest.  Two canonical conditions that always have the same value are therefore
the same (`eq_of_holds_eq`), and every law of conjunction that holds of truth values holds of
conditions.  For the same reason the terms that branches share make up the strongest condition that
all of them imply.  Main statements: `canonical_conjunction`, `any_leastUpperBound`.
-/

namespace ResponseModel

namespace Condition

/-- The terms have different variables, in increasing order. -/
def Sorted (terms : List Term) : Prop := (terms.map Term.name).Pairwise (· < ·)

/-- The condition is in its one form. -/
def Canonical : Condition → Prop
  | .always => True
  | .never => True
  | .one _ => True
  | .conj terms => 2 ≤ terms.length ∧ Sorted terms

instance (terms : List Term) : Decidable (Sorted terms) :=
  inferInstanceAs (Decidable (List.Pairwise _ _))

instance : (condition : Condition) → Decidable condition.Canonical
  | .always => .isTrue trivial
  | .never => .isTrue trivial
  | .one _ => .isTrue trivial
  | .conj terms => inferInstanceAs (Decidable (2 ≤ terms.length ∧ Sorted terms))

/-! ## Terms of canonical conditions -/

theorem canonical_ofTerms {terms : List Term} (h : Sorted terms) : (ofTerms terms).Canonical := by
  match terms with
  | [] => trivial
  | [_] => trivial
  | first :: second :: rest => exact ⟨by simp, h⟩

/-- A canonical condition that can hold is the conjunction of its terms, which are sorted. -/
theorem Canonical.ofTerms_eq {condition : Condition} (h : condition.Canonical) {terms : List Term}
    (hterms : condition.terms? = some terms) : ofTerms terms = condition ∧ Sorted terms := by
  cases condition with
  | always =>
      obtain rfl := Option.some.inj hterms
      exact ⟨rfl, .nil⟩
  | never => cases hterms
  | one term =>
      obtain rfl := Option.some.inj hterms
      exact ⟨rfl, List.pairwise_singleton _ _⟩
  | conj terms' =>
      obtain rfl := Option.some.inj hterms
      refine ⟨?_, h.2⟩
      match terms', h.1 with
      | _ :: _ :: _, _ => rfl

theorem Sorted.nodup_names {terms : List Term} (h : Sorted terms) : (terms.map Term.name).Nodup :=
  h.imp ne_of_lt

/-- Sorted terms are determined by which terms there are. -/
theorem Sorted.ext {terms others : List Term} (h : Sorted terms) (h' : Sorted others)
    (hmem : ∀ term, term ∈ terms ↔ term ∈ others) : terms = others := by
  have hperm : terms.Perm others :=
    (List.perm_ext_iff_of_nodup h.nodup_names.of_map h'.nodup_names.of_map).2 hmem
  refine hperm.eq_of_pairwise ?_ (List.pairwise_map.1 h) (List.pairwise_map.1 h')
  intro term other _ _ hlt hgt
  exact absurd hgt (lt_asymm hlt)

/-! ## Telling conditions apart by values -/

/-- If sorted terms cannot hold without another term, then it is one of them. -/
theorem mem_of_holds_of_holds {terms : List Term} (h : Sorted terms) {term : Term}
    (himp : ∀ values, terms.all (Term.holds values) = true → term.holds values = true) :
    term ∈ terms := by
  by_contra hnot
  obtain ⟨values, hvalues⟩ := exists_holds_of_nodup h.nodup_names
  -- set the variable of the term against it, and keep the values of the others
  let against : Name → Bool := fun name => if name = term.name then term.negated else values name
  have hfails : term.holds against = false := by simp [Term.holds, against]
  have hholds : terms.all (Term.holds against) = true := by
    rw [List.all_eq_true] at hvalues ⊢
    intro other hother
    by_cases hname : other.name = term.name
    · -- a term on the same variable is the opposite term
      have hsign : term.negated ≠ other.negated := by
        intro hsign
        have heq : other = term := by
          cases other
          cases term
          simp_all
        exact hnot (heq ▸ hother)
      simpa [Term.holds, against, hname] using hsign
    · have hother := hvalues other hother
      simpa [Term.holds, against, hname] using hother
  rw [himp against hholds] at hfails
  cases hfails

/-- A condition without terms is `never`. -/
theorem terms?_eq_none_iff {condition : Condition} :
    condition.terms? = none ↔ condition = .never := by
  cases condition <;> simp [terms?]

theorem Canonical.satisfiable_iff {condition : Condition} (h : condition.Canonical) :
    condition.Satisfiable ↔ condition ≠ .never := by
  constructor
  · rintro ⟨values, hvalues⟩ rfl
    cases hvalues
  · intro hne
    obtain ⟨terms, hterms⟩ := Option.ne_none_iff_exists'.1 (mt terms?_eq_none_iff.1 hne)
    obtain ⟨values, hvalues⟩ := exists_holds_of_nodup (h.ofTerms_eq hterms).2.nodup_names
    refine ⟨values, ?_⟩
    rw [holds_eq_termsHold, hterms]
    exact hvalues

/-- A canonical condition has the terms of every condition that it implies. -/
theorem Canonical.subset_of_holds {condition other : Condition} (h : condition.Canonical)
    (himp : ∀ values, condition.holds values = true → other.holds values = true)
    {terms fewer : List Term} (hterms : condition.terms? = some terms)
    (hfewer : other.terms? = some fewer) : fewer ⊆ terms := by
  intro term hterm
  refine mem_of_holds_of_holds (h.ofTerms_eq hterms).2 fun values hvalues => ?_
  have hholds : other.holds values = true := by
    apply himp
    rw [holds_eq_termsHold, hterms]
    exact hvalues
  rw [holds_eq_termsHold, hfewer, termsHold, List.all_eq_true] at hholds
  exact hholds term hterm

/-- Canonical forms are unique. -/
theorem eq_of_holds_eq {condition other : Condition} (h : condition.Canonical)
    (h' : other.Canonical) (hsame : ∀ values, condition.holds values = other.holds values) :
    condition = other := by
  have hnever : condition ≠ .never ↔ other ≠ .never := by
    rw [← h.satisfiable_iff, ← h'.satisfiable_iff]
    simp only [Satisfiable, hsame]
  by_cases hne : condition = .never
  · rw [hne, not_ne_iff.1 (mt hnever.2 (not_ne_iff.2 hne))]
  · obtain ⟨terms, hterms⟩ := Option.ne_none_iff_exists'.1 (mt terms?_eq_none_iff.1 hne)
    obtain ⟨others, hothers⟩ :=
      Option.ne_none_iff_exists'.1 (mt terms?_eq_none_iff.1 (hnever.1 hne))
    obtain ⟨heq, hsorted⟩ := h.ofTerms_eq hterms
    obtain ⟨heq', hsorted'⟩ := h'.ofTerms_eq hothers
    have hto : others ⊆ terms :=
      h.subset_of_holds (fun values hholds => by rwa [← hsame]) hterms hothers
    have hfrom : terms ⊆ others :=
      h'.subset_of_holds (fun values hholds => by rwa [hsame]) hothers hterms
    have hmem : ∀ term, term ∈ terms ↔ term ∈ others :=
      fun term => ⟨fun hterm => hfrom hterm, fun hterm => hto hterm⟩
    rw [← heq, ← heq', hsorted.ext hsorted' hmem]

/-! ## What can be made -/

/-- A conjunction is canonical, whatever its members are. -/
theorem canonical_all (conditions : List Condition) : (all conditions).Canonical := by
  unfold all
  cases hgather : gather? conditions with
  | none => trivial
  | some terms => exact canonical_ofTerms (pairwise_gather? hgather)

/-- Merged branches are canonical, whatever the branches are. -/
theorem canonical_any (branches : List Condition) : (any branches).Canonical := by
  unfold any
  split
  · trivial
  · exact canonical_all _

/-- The conditions that can be made from variables and directives. -/
inductive Made : Condition → Prop
  | var (name : Name) : Made (.var name)
  | not {term : Term} : Made (.one term) → Made (.one term.not)
  | all {conditions : List Condition} : (∀ condition ∈ conditions, Made condition) →
      Made (.all conditions)
  | any {branches : List Condition} : (∀ branch ∈ branches, Made branch) → Made (.any branches)
  | and {left right : Condition} : Made left → Made right → Made (left.and right)
  | simplify {condition : Condition} : Made condition → Made condition.simplify
  | ofDirectives {directives : List Directive} {selection : String} {condition : Condition} :
      ofDirectives directives selection = .ok condition → Made condition

theorem Made.canonical {condition : Condition} (h : Made condition) : condition.Canonical := by
  cases h with
  | var name => trivial
  | not _ => trivial
  | all _ => exact canonical_all _
  | any _ => exact canonical_any _
  | and _ _ => exact canonical_all _
  | simplify _ => exact canonical_all _
  | ofDirectives hread =>
      obtain ⟨conditions, -, rfl⟩ := except_map_eq_ok.1 hread
      exact canonical_all conditions

theorem made_one : ∀ term : Term, Made (.one term)
  | ⟨name, false⟩ => .var name
  | ⟨name, true⟩ => .not (.var name)

/-- A canonical condition is a conjunction of terms, or it merges no branches. -/
theorem Canonical.made {condition : Condition} (h : condition.Canonical) : Made condition := by
  by_cases hne : condition = .never
  · rw [hne]
    show Made (.any [])
    exact .any fun branch hbranch => absurd hbranch List.not_mem_nil
  · obtain ⟨terms, hterms⟩ := Option.ne_none_iff_exists'.1 (mt terms?_eq_none_iff.1 hne)
    have heq : condition = all (terms.map .one) := by
      refine eq_of_holds_eq h (canonical_all _) fun values => ?_
      rw [holds_eq_termsHold, hterms, holds_all, List.all_map]
      rfl
    rw [heq]
    apply Made.all
    intro member hmember
    obtain ⟨term, -, rfl⟩ := List.mem_map.1 hmember
    exact made_one term

/-! ## Laws -/

theorem Canonical.simplify_eq {condition : Condition} (h : condition.Canonical) :
    condition.simplify = condition := by
  refine eq_of_holds_eq (canonical_all _) h fun values => ?_
  simp [simplify]

theorem and_comm (left right : Condition) : left.and right = right.and left := by
  refine eq_of_holds_eq (canonical_all _) (canonical_all _) fun values => ?_
  rw [holds_and, holds_and, Bool.and_comm]

theorem and_assoc (first second third : Condition) :
    (first.and second).and third = first.and (second.and third) := by
  refine eq_of_holds_eq (canonical_all _) (canonical_all _) fun values => ?_
  simp only [holds_and, Bool.and_assoc]

theorem Canonical.and_self {condition : Condition} (h : condition.Canonical) :
    condition.and condition = condition := by
  refine eq_of_holds_eq (canonical_all _) h fun values => ?_
  rw [holds_and, Bool.and_self]

theorem and_never (condition : Condition) : condition.and .never = .never := by
  refine eq_of_holds_eq (canonical_all _) trivial fun values => ?_
  rw [holds_and]
  exact Bool.and_false _

/-- Merged branches depend on which branches there are, not on their order. -/
theorem any_congr {branches branches' : List Condition}
    (h : ∀ branch, branch ∈ branches ↔ branch ∈ branches') : any branches = any branches' := by
  refine eq_of_holds_eq (canonical_any _) (canonical_any _) fun values => ?_
  rw [Bool.eq_iff_iff, holds_any_iff, holds_any_iff]
  simp only [Shared, h]

/-- **Conjunction is exact, and conditions have one form each.**  A conjunction holds under values
of the variables exactly if all its members do, and it is canonical.  The conditions that can be
made at all, from variables and directives, are the canonical ones.  Simplifying leaves a canonical
condition as it is, and two canonical conditions that hold under the same values are the same.  So
conjunction is associative, commutative and idempotent, `always` is its unit and `never` its
zero. -/
theorem canonical_conjunction :
    (∀ conditions, (all conditions).Canonical ∧ ∀ values,
      (all conditions).holds values = true ↔
        ∀ condition ∈ conditions, condition.holds values = true) ∧
    (∀ condition, Made condition ↔ condition.Canonical) ∧
    (∀ condition : Condition, condition.Canonical → condition.simplify = condition) ∧
    (∀ condition other : Condition, condition.Canonical → other.Canonical →
      (∀ values, condition.holds values = other.holds values) → condition = other) ∧
    (∀ first second third : Condition,
      (first.and second).and third = first.and (second.and third)) ∧
    (∀ left right : Condition, left.and right = right.and left) ∧
    (∀ condition : Condition, condition.Canonical →
      condition.and condition = condition ∧ condition.and .always = condition) ∧
    ∀ condition : Condition, condition.and .never = .never := by
  refine ⟨fun conditions => ⟨canonical_all conditions, fun values => ?_⟩,
    fun condition => ⟨Made.canonical, Canonical.made⟩, fun condition h => h.simplify_eq,
    fun condition other h h' hsame => eq_of_holds_eq h h' hsame, and_assoc, and_comm,
    fun condition h => ⟨h.and_self, ?_⟩, and_never⟩
  · rw [holds_all, List.all_eq_true]
  · rw [and_always, h.simplify_eq]

/-- The same condition, written down and put together from its terms in another order. -/
theorem canonical_conjunction_pair :
    let condition : Condition := .conj [⟨"brief", true⟩, ⟨"pets", false⟩]
    let other := all [.var "pets", .always, .one ⟨"brief", true⟩, condition]
    condition.Canonical ∧ other.Canonical ∧ Made condition ∧ condition = other ∧
      condition.simplify = condition ∧ condition.and condition = condition ∧
      condition.and .always = condition := by
  intro condition other
  have hcondition : condition.Canonical := by decide
  have hother : other.Canonical := (canonical_conjunction.1 _).1
  obtain ⟨-, hmade, hsimplify, hunique, -, -, hlaws, -⟩ := canonical_conjunction
  have hsame : ∀ values, condition.holds values = other.holds values := by
    intro values
    rw [show other.holds values = _ from holds_all _]
    simp only [condition, holds, var, Term.holds, List.all_cons, List.all_nil]
    cases values "brief" <;> cases values "pets" <;> rfl
  exact ⟨hcondition, hother, (hmade condition).2 hcondition,
    hunique condition other hcondition hother hsame, hsimplify condition hcondition,
    hlaws condition hcondition⟩

/-! ## Merging branches -/

/-- The other condition holds wherever the condition does. -/
def Implies (condition other : Condition) : Prop :=
  ∀ values, condition.holds values = true → other.holds values = true

/-- Merged canonical branches imply whatever every one of them implies. -/
theorem any_implies {branches : List Condition} (h : ∀ branch ∈ branches, branch.Canonical)
    {other : Condition} (himp : ∀ branch ∈ branches, branch.Implies other) :
    (any branches).Implies other := by
  intro values hholds
  obtain ⟨⟨branch, hbranch, hsome⟩, hshared⟩ := holds_any_iff.1 hholds
  -- a branch that can hold makes the other condition hold somewhere
  have hne : other ≠ .never := by
    rintro rfl
    have hbranchNe : branch ≠ .never := by
      rintro rfl
      cases hsome
    obtain ⟨somewhere, hsomewhere⟩ := (h branch hbranch).satisfiable_iff.2 hbranchNe
    exact absurd (himp branch hbranch somewhere hsomewhere) Bool.false_ne_true
  obtain ⟨fewer, hfewer⟩ := Option.ne_none_iff_exists'.1 (mt terms?_eq_none_iff.1 hne)
  rw [holds_eq_termsHold, hfewer, termsHold, List.all_eq_true]
  intro term hterm
  have hterms : Shared branches term := fun branch hbranch terms hterms =>
    (h branch hbranch).subset_of_holds (himp branch hbranch) hterms hfewer hterm
  exact hshared term hterms

/-- **Merged branches are the least upper bound of the branches.**  For canonical branches, the
merged condition is canonical, every branch implies it, and it implies every condition that all
branches imply.  So it is the only canonical condition of this kind, and neither the order of the
branches nor their repetition matters. -/
theorem any_leastUpperBound {branches : List Condition}
    (h : ∀ branch ∈ branches, branch.Canonical) :
    (any branches).Canonical ∧
    (∀ branch ∈ branches, branch.Implies (any branches)) ∧
    (∀ other : Condition, (∀ branch ∈ branches, branch.Implies other) →
      (any branches).Implies other) ∧
    (∀ least : Condition, least.Canonical → (∀ branch ∈ branches, branch.Implies least) →
      (∀ other : Condition, other.Canonical → (∀ branch ∈ branches, branch.Implies other) →
        least.Implies other) → least = any branches) ∧
    ∀ others : List Condition, (∀ branch, branch ∈ others ↔ branch ∈ branches) →
      any others = any branches := by
  have hupper : ∀ branch ∈ branches, branch.Implies (any branches) :=
    fun branch hbranch values hholds => holds_any_of_mem hbranch hholds
  refine ⟨canonical_any branches, hupper, fun other himp => any_implies h himp, ?_,
    fun others hmem => any_congr hmem⟩
  intro least hleast hleastUpper hmin
  refine eq_of_holds_eq hleast (canonical_any branches) fun values => ?_
  rw [Bool.eq_iff_iff]
  exact ⟨hmin (any branches) (canonical_any branches) hupper values,
    any_implies h hleastUpper values⟩

/-- Two branches that share a term and one that never holds: the shared term is left, which holds
where no branch does. -/
theorem any_leastUpperBound_shared :
    let branches : List Condition := [.conj [⟨"pets", false⟩, ⟨"vets", false⟩], .never,
      .conj [⟨"brief", true⟩, ⟨"pets", false⟩]]
    (∀ branch ∈ branches, branch.Canonical) ∧ any branches = .var "pets" ∧
    (∀ branch ∈ branches, branch.Implies (.var "pets")) ∧
    (∀ other : Condition, (∀ branch ∈ branches, branch.Implies other) →
      (var "pets").Implies other) ∧
    any (branches.reverse ++ branches) = .var "pets" := by
  intro branches
  have hbranches : ∀ branch ∈ branches, branch.Canonical := by decide
  have hany : any branches = .var "pets" := by decide
  obtain ⟨-, hupper, hleast, -, hcongr⟩ := any_leastUpperBound hbranches
  rw [hany] at hupper hleast
  refine ⟨hbranches, hany, hupper, hleast, ?_⟩
  rw [hcongr (branches.reverse ++ branches) (by simp), hany]

end Condition

end ResponseModel
