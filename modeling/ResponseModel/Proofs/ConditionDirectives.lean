import ResponseModel.Proofs.CanonicalConditions
import ResponseModel.Proofs.Execution

/-!
# Reading condition directives

A list of directives can be read exactly if `@skip` and `@include` each stand in it at most once,
with one argument that is a boolean or a variable (`Readable`).  Reading goes through the list once
and remembers the condition directives that it has met, so what one step asks of the rest is in
`exists_readDirectives_cons`; by induction a list is read exactly if its condition directives have
different names and good arguments (`exists_readDirectives_iff`).

What was read means what the directives say, and as conditions have one form each, directives that
say the same are read as the same condition.  Main statement: `ofDirectives_exact`.
-/

namespace ResponseModel

namespace Directive

/-- Whether the directive is `@skip` or `@include`. -/
def isCondition (directive : Directive) : Bool :=
  directive.name == "skip" || directive.name == "include"

/-- The directive has one argument, which is a boolean or a variable. -/
def HasTruth (directive : Directive) : Prop :=
  ∃ key value, directive.arguments = [(key, value)] ∧
    ((∃ truth, value = .boolean truth) ∨ ∃ name, value = .var name)

/-- The truth value that the directive is given. -/
def truth? (values : Name → Bool) (directive : Directive) : Option Bool :=
  match directive.arguments with
  | [(_, value)] => value.truth? values
  | _ => none

theorem isCondition_iff {directive : Directive} :
    directive.isCondition = true ↔ directive.name = "skip" ∨ directive.name = "include" := by
  simp [isCondition]

theorem HasTruth.exists_truth {directive : Directive} (h : directive.HasTruth)
    (values : Name → Bool) : ∃ truth, directive.truth? values = some truth := by
  obtain ⟨key, value, harguments, ⟨truth, rfl⟩ | ⟨name, rfl⟩⟩ := h
  · exact ⟨truth, by rw [truth?, harguments]; rfl⟩
  · exact ⟨values name, by rw [truth?, harguments]; rfl⟩

/-- A directive with a truth value allows its selection exactly if the value is true for
`@include` and false for `@skip`. -/
theorem HasTruth.allows_iff {directive : Directive} {values : Name → Bool}
    (h : directive.HasTruth) : directive.allows values = true ↔
      (directive.name = "include" → directive.truth? values = some true) ∧
        (directive.name = "skip" → directive.truth? values = some false) := by
  obtain ⟨truth, htruth⟩ := h.exists_truth values
  obtain ⟨key, value, harguments, -⟩ := h
  have hvalue : value.truth? values = some truth := by rwa [truth?, harguments] at htruth
  rw [htruth, allows, harguments]
  by_cases hskip : directive.name = "skip"
  · cases truth <;> simp [hskip, hvalue]
  · by_cases hinclude : directive.name = "include"
    · cases truth <;> simp [hinclude, hvalue]
    · simp [hskip, hinclude]

/-- Directives that are neither `@skip` nor `@include` allow everything. -/
theorem allows_of_not_isCondition {directive : Directive} {values : Name → Bool}
    (h : directive.isCondition = false) : directive.allows values = true := by
  have hname := mt isCondition_iff.2 (Bool.not_eq_true _ ▸ h)
  rw [not_or] at hname
  unfold allows
  split
  · rw [if_neg hname.1, if_neg hname.2]
  · rfl

end Directive

namespace Condition

/-- `@skip` and `@include` each stand at most once in the list, and each time with one argument,
which is a boolean or a variable. -/
structure Readable (directives : List Directive) : Prop where
  skip_once : (directives.map Directive.name).count "skip" ≤ 1
  include_once : (directives.map Directive.name).count "include" ≤ 1
  hasTruth : ∀ directive ∈ directives, directive.name = "skip" ∨ directive.name = "include" →
    directive.HasTruth

/-! ## One step -/

theorem exists_ofArgument_iff {directive : Name} {skip : Bool} {literal : Literal} :
    (∃ condition, ofArgument directive skip literal = .ok condition) ↔
      (∃ truth, literal = .boolean truth) ∨ ∃ name, literal = .var name := by
  cases literal <;> simp [ofArgument]

/-- A directive that is no condition is passed over. -/
theorem readDirectives_cons_of_not {selection : String} {seen : List Name} {directive : Directive}
    {rest : List Directive} (h : directive.isCondition = false) :
    readDirectives selection seen (directive :: rest) = readDirectives selection seen rest := by
  rw [readDirectives, if_neg (mt Directive.isCondition_iff.2 (Bool.not_eq_true _ ▸ h))]

/-- A condition directive is read if it is new and has a truth value; the rest is read after it. -/
theorem exists_readDirectives_cons {selection : String} {seen : List Name} {directive : Directive}
    {rest : List Directive} (h : directive.isCondition = true) :
    (∃ conditions, readDirectives selection seen (directive :: rest) = .ok conditions) ↔
      directive.name ∉ seen ∧ directive.HasTruth ∧
        ∃ others, readDirectives selection (directive.name :: seen) rest = .ok others := by
  rw [readDirectives, if_pos (Directive.isCondition_iff.1 h)]
  by_cases hseen : directive.name ∈ seen
  · simp [hseen]
  rw [if_neg hseen]
  constructor
  · rintro ⟨conditions, hread⟩
    split at hread
    · next key value harguments =>
        obtain ⟨condition, hcondition, hread⟩ := except_bind_eq_ok.1 hread
        obtain ⟨others, hothers, -⟩ := except_bind_eq_ok.1 hread
        have hvalue := exists_ofArgument_iff.1 ⟨condition, hcondition⟩
        exact ⟨hseen, ⟨key, value, harguments, hvalue⟩, others, hothers⟩
    · cases hread
  · rintro ⟨-, ⟨key, value, harguments, hvalue⟩, others, hothers⟩
    obtain ⟨condition, hcondition⟩ := exists_ofArgument_iff.2 hvalue
    refine ⟨condition :: others, ?_⟩
    rw [harguments]
    exact except_bind_eq_ok.2 ⟨condition, hcondition, except_bind_eq_ok.2 ⟨others, hothers, rfl⟩⟩

/-! ## The whole list -/

/-- Reading succeeds exactly if the condition directives are new, differ from each other in their
names, and have truth values. -/
theorem exists_readDirectives_iff {selection : String} {seen : List Name}
    {directives : List Directive} :
    (∃ conditions, readDirectives selection seen directives = .ok conditions) ↔
      ((directives.filter Directive.isCondition).map Directive.name).Nodup ∧
        ∀ directive ∈ directives.filter Directive.isCondition,
          directive.name ∉ seen ∧ directive.HasTruth := by
  induction directives generalizing seen with
  | nil => simp [readDirectives]
  | cons directive rest ih =>
      cases hcondition : directive.isCondition with
      | false =>
          rw [readDirectives_cons_of_not hcondition, ih,
            List.filter_cons_of_neg (by simp [hcondition])]
      | true =>
          rw [exists_readDirectives_cons hcondition, ih, List.filter_cons_of_pos hcondition]
          rw [List.map_cons, List.nodup_cons, List.forall_mem_cons]
          constructor
          · rintro ⟨hseen, htruth, hnodup, hrest⟩
            refine ⟨⟨?_, hnodup⟩, ⟨hseen, htruth⟩, fun other hother => ?_⟩
            · rw [List.mem_map]
              rintro ⟨other, hother, hname⟩
              exact (hrest other hother).1 (hname ▸ List.mem_cons_self)
            · obtain ⟨hnew, htruth⟩ := hrest other hother
              exact ⟨fun hmem => hnew (List.mem_cons_of_mem _ hmem), htruth⟩
          · rintro ⟨⟨hnew, hnodup⟩, ⟨hseen, htruth⟩, hrest⟩
            refine ⟨hseen, htruth, hnodup, fun other hother => ⟨?_, (hrest other hother).2⟩⟩
            rw [List.mem_cons, not_or]
            exact ⟨fun hname => hnew (hname ▸ List.mem_map_of_mem hother), (hrest other hother).1⟩

/-- The condition directives have different names exactly if neither name is repeated. -/
theorem nodup_names_iff {directives : List Directive} :
    ((directives.filter Directive.isCondition).map Directive.name).Nodup ↔
      (directives.map Directive.name).count "skip" ≤ 1 ∧
        (directives.map Directive.name).count "include" ≤ 1 := by
  let isOne : Name → Bool := fun name => name == "skip" || name == "include"
  have hnames : (directives.filter Directive.isCondition).map Directive.name =
      (directives.map Directive.name).filter isOne := by
    rw [List.filter_map]
    rfl
  rw [hnames, List.nodup_iff_count_le_one]
  constructor
  · intro h
    have hskip := h "skip"
    have hinclude := h "include"
    rw [List.count_filter (by simp [isOne])] at hskip hinclude
    exact ⟨hskip, hinclude⟩
  · rintro ⟨hskip, hinclude⟩ name
    by_cases hone : isOne name = true
    · rw [List.count_filter hone]
      have hname : name = "skip" ∨ name = "include" := by simpa [isOne] using hone
      rcases hname with rfl | rfl
      · exact hskip
      · exact hinclude
    · have hnot : name ∉ (directives.map Directive.name).filter isOne :=
        fun hmem => hone (List.mem_filter.1 hmem).2
      rw [List.count_eq_zero_of_not_mem hnot]
      exact Nat.zero_le 1

theorem readable_iff {directives : List Directive} : Readable directives ↔
    ((directives.filter Directive.isCondition).map Directive.name).Nodup ∧
      ∀ directive ∈ directives.filter Directive.isCondition, directive.HasTruth := by
  rw [nodup_names_iff]
  constructor
  · intro h
    refine ⟨⟨h.skip_once, h.include_once⟩, fun directive hdirective => ?_⟩
    obtain ⟨hmem, hcondition⟩ := List.mem_filter.1 hdirective
    exact h.hasTruth directive hmem (Directive.isCondition_iff.1 hcondition)
  · rintro ⟨⟨hskip, hinclude⟩, htruth⟩
    refine ⟨hskip, hinclude, fun directive hmem hname => ?_⟩
    exact htruth directive (List.mem_filter.2 ⟨hmem, Directive.isCondition_iff.2 hname⟩)

theorem exists_ofDirectives_iff {directives : List Directive} {selection : String} :
    (∃ condition, ofDirectives directives selection = .ok condition) ↔ Readable directives := by
  have hmap : (∃ condition, ofDirectives directives selection = .ok condition) ↔
      ∃ conditions, readDirectives selection [] directives = .ok conditions := by
    simp only [ofDirectives, except_map_eq_ok]
    constructor
    · rintro ⟨_, conditions, hread, -⟩
      exact ⟨conditions, hread⟩
    · rintro ⟨conditions, hread⟩
      exact ⟨_, conditions, hread, rfl⟩
  rw [hmap, exists_readDirectives_iff, readable_iff]
  simp

/-- The condition that was read holds exactly if every condition directive has the truth value that
it asks for. -/
theorem holds_iff_of_ofDirectives {directives : List Directive} {selection : String}
    {condition : Condition} (h : ofDirectives directives selection = .ok condition)
    (values : Name → Bool) : condition.holds values = true ↔
      ∀ directive ∈ directives.filter Directive.isCondition,
        (directive.name = "include" → directive.truth? values = some true) ∧
          (directive.name = "skip" → directive.truth? values = some false) := by
  have htruth := (readable_iff.1 (exists_ofDirectives_iff.1 ⟨condition, h⟩)).2
  rw [eq_asked_of_ofDirectives h, holds_asked, List.all_eq_true]
  constructor
  · intro hallows directive hdirective
    exact (htruth directive hdirective).allows_iff.1
      (hallows directive (List.mem_of_mem_filter hdirective))
  · intro hasked directive hdirective
    cases hcondition : directive.isCondition with
    | false => exact Directive.allows_of_not_isCondition hcondition
    | true =>
        have hmem := List.mem_filter.2 ⟨hdirective, hcondition⟩
        exact (htruth directive hmem).allows_iff.2 (hasked directive hmem)

/-- The same condition directives, in any order, are read as the same condition. -/
theorem ofDirectives_of_perm {directives others : List Directive} {selection other : String}
    (hperm : (directives.filter Directive.isCondition).Perm (others.filter Directive.isCondition))
    {condition : Condition} (h : ofDirectives directives selection = .ok condition) :
    ofDirectives others other = .ok condition := by
  have hreadable : Readable others := by
    rw [readable_iff, ← (hperm.map Directive.name).nodup_iff]
    simp only [← hperm.mem_iff]
    exact readable_iff.1 (exists_ofDirectives_iff.1 ⟨condition, h⟩)
  obtain ⟨condition', h'⟩ := exists_ofDirectives_iff.2 hreadable
  have heq : condition' = condition := by
    refine eq_of_holds_eq (Made.ofDirectives h').canonical (Made.ofDirectives h).canonical ?_
    intro values
    rw [Bool.eq_iff_iff, holds_iff_of_ofDirectives h', holds_iff_of_ofDirectives h]
    simp only [hperm.mem_iff]
  rw [h', heq]

/-- **Reading condition directives is exact.**  Directives can be read exactly if `@skip` and
`@include` each stand at most once among them, each time with one argument that is a boolean or a
variable.  The condition that is read holds exactly if the value given to `@include` is true and
the value given to `@skip` is false, as far as there are any.  Whether directives can be read, and
as what, depends on the `@skip` and `@include` among them only, and not on their order. -/
theorem ofDirectives_exact (directives : List Directive) (selection : String) :
    ((∃ condition, ofDirectives directives selection = .ok condition) ↔ Readable directives) ∧
    (∀ condition, ofDirectives directives selection = .ok condition → ∀ values,
      (condition.holds values = true ↔ ∀ directive ∈ directives,
        (directive.name = "include" → directive.truth? values = some true) ∧
          (directive.name = "skip" → directive.truth? values = some false))) ∧
    ∀ (others : List Directive) (other : String),
      (directives.filter Directive.isCondition).Perm (others.filter Directive.isCondition) →
        (ofDirectives directives selection).toOption = (ofDirectives others other).toOption := by
  refine ⟨exists_ofDirectives_iff, fun condition h values => ?_, fun others other hperm => ?_⟩
  · rw [holds_iff_of_ofDirectives h]
    constructor
    · intro hasked directive hmem
      have hfilter : directive.name = "skip" ∨ directive.name = "include" →
          directive ∈ directives.filter Directive.isCondition :=
        fun hname => List.mem_filter.2 ⟨hmem, Directive.isCondition_iff.2 hname⟩
      exact ⟨fun hname => (hasked directive (hfilter (.inr hname))).1 hname,
        fun hname => (hasked directive (hfilter (.inl hname))).2 hname⟩
    · intro hasked directive hdirective
      exact hasked directive (List.mem_of_mem_filter hdirective)
  · refine Option.ext fun condition => ?_
    rw [except_toOption_eq_some, except_toOption_eq_some]
    exact ⟨ofDirectives_of_perm hperm, ofDirectives_of_perm hperm.symm⟩

/-- The same two condition directives in both orders, once with another directive between them. -/
theorem ofDirectives_exact_pair :
    let skipped : Directive := ⟨"skip", [("if", .var "brief")]⟩
    let included : Directive := ⟨"include", [("if", .var "pets")]⟩
    let marked : Directive := ⟨"connection", []⟩
    let condition : Condition := .conj [⟨"brief", true⟩, ⟨"pets", false⟩]
    Readable [included, marked, skipped] ∧
    ofDirectives [included, marked, skipped] "cat" = .ok condition ∧
    (condition.holds fun name => name == "pets") = true ∧
    ofDirectives [skipped, included] "dog" = .ok condition ∧
    ¬ Readable [included, marked, skipped, included] := by
  intro skipped included marked condition
  have hread : ofDirectives [included, marked, skipped] "cat" = .ok condition := by decide
  obtain ⟨hreadable, hholds, hothers⟩ := ofDirectives_exact [included, marked, skipped] "cat"
  obtain ⟨hreadable', -⟩ := ofDirectives_exact [included, marked, skipped, included] "cat"
  refine ⟨hreadable.1 ⟨condition, hread⟩, hread, ?_, ?_, fun h => ?_⟩
  · rw [hholds condition hread]
    simp [skipped, included, marked, Directive.truth?, Literal.truth?]
  · have hperm : ([included, marked, skipped].filter Directive.isCondition).Perm
        ([skipped, included].filter Directive.isCondition) := .swap skipped included []
    rw [← except_toOption_eq_some, ← hothers [skipped, included] "dog" hperm, hread]
    rfl
  · obtain ⟨other, hother⟩ := hreadable'.2 h
    have hfails : ofDirectives [included, marked, skipped, included] "cat" =
        .error (.duplicateCondition "include" "cat") := by decide
    rw [hfails] at hother
    cases hother

end Condition

end ResponseModel
