import ResponseModel.Proofs.RevisitingSearch

/-!
# Common refinements

Types are ordered by strictness.  Two types that have a lower bound in this order have a greatest
one, and the common refinement is that type (`TypeRef.meet?_eq_some_iff`); other types have none
(`TypeRef.exists_meet?_iff`).  So a list of types that is taken in one by one gives the greatest
lower bound of all its types, or nothing (`TypeRef.foldlM_meet?_eq_some_iff`), and what it gives
depends on which types there are and not on their order.  Main statement:
`TypeRef.meet?_isGLB`.
-/

namespace ResponseModel

namespace TypeRef

/-! ## Levels -/

/-- Whether null is forbidden, at every level of a type from the outermost to the innermost. -/
def levels : TypeRef → List Bool
  | .named _ required => [required]
  | .list item required => required :: item.levels

theorem levels_ne_nil (type : TypeRef) : type.levels ≠ [] := by
  cases type <;> simp [levels]

/-- The stricter type has the same number of levels around the same name, and forbids null at every
level where the other does. -/
theorem le_iff_levels {left right : TypeRef} :
    left ≤ right ↔ left.innerName = right.innerName ∧
      List.Forall₂ (fun required required' => required' = true → required = true)
        left.levels right.levels := by
  induction left generalizing right with
  | named name required =>
      cases right with
      | named name' required' => simp [innerName, levels]
      | list item' required' => simp [innerName, levels, levels_ne_nil item']
  | list item required ih =>
      cases right with
      | named name' required' => simp [innerName, levels, levels_ne_nil item]
      | list item' required' =>
          rw [list_le_list, ih, levels, levels, List.forall₂_cons, innerName, innerName]
          tauto

/-! ## Two types -/

theorem alike_iff_exists_le {left right : TypeRef} :
    left.Alike right ↔ ∃ type, type ≤ left ∧ type ≤ right := by
  constructor
  · intro halike
    cases hmeet : left.meet? right with
    | none => exact absurd halike (meet?_eq_none_iff.1 hmeet)
    | some both => exact ⟨both, (le_meet?_iff hmeet).1 le_rfl⟩
  · rintro ⟨type, hleft, hright⟩
    exact (alike_of_le hleft).symm.trans (alike_of_le hright)

/-- Two types have a common refinement exactly if they have a lower bound. -/
theorem exists_meet?_iff {left right : TypeRef} :
    (∃ both, left.meet? right = some both) ↔ ∃ type, type ≤ left ∧ type ≤ right := by
  rw [← Option.ne_none_iff_exists', ← alike_iff_exists_le, ne_eq, meet?_eq_none_iff, not_not]

/-- The common refinement is the greatest lower bound. -/
theorem meet?_eq_some_iff {left right both : TypeRef} :
    left.meet? right = some both ↔ IsGLB {left, right} both := by
  have hglb : ∀ {type}, left.meet? right = some type → IsGLB {left, right} type := by
    intro type htype
    rw [isGLB_iff_le_iff]
    intro other
    simp [le_meet?_iff htype, lowerBounds]
  constructor
  · exact hglb
  · intro h
    obtain ⟨type, htype⟩ := exists_meet?_iff.2 ⟨both, h.1 (.inl rfl), h.1 (.inr rfl)⟩
    rw [htype, (hglb htype).unique h]

/-! ## Many types -/

/-- Taking types in one by one gives the greatest lower bound of them all. -/
theorem foldlM_meet?_eq_some_iff {first both : TypeRef} {others : List TypeRef} :
    others.foldlM meet? first = some both ↔ IsGLB {type | type ∈ first :: others} both := by
  induction others generalizing first with
  | nil =>
      have hset : {type | type ∈ [first]} = {first} := by
        ext type
        simp
      rw [hset, List.foldlM_nil]
      constructor
      · intro h
        obtain rfl := Option.some.inj h
        exact isGLB_singleton
      · intro h
        rw [isGLB_singleton.unique h]
        rfl
  | cons next rest ih =>
      rw [List.foldlM_cons, Option.bind_eq_bind, Option.bind_eq_some_iff]
      -- a refinement of the first two stands for both among the lower bounds
      have hbounds : ∀ {type}, first.meet? next = some type →
          (IsGLB {type' | type' ∈ type :: rest} both ↔
            IsGLB {type' | type' ∈ first :: next :: rest} both) := by
        intro type htype
        rw [isGLB_iff_le_iff, isGLB_iff_le_iff]
        simp [lowerBounds, le_meet?_iff htype, and_assoc]
      constructor
      · rintro ⟨type, htype, hrest⟩
        exact (hbounds htype).1 (ih.1 hrest)
      · intro h
        obtain ⟨type, htype⟩ := exists_meet?_iff.2
          ⟨both, h.1 (List.mem_cons_self), h.1 (List.mem_cons_of_mem first List.mem_cons_self)⟩
        exact ⟨type, htype, ih.2 ((hbounds htype).2 h)⟩

/-- Types taken in one by one give the same outcome in any order and with any repetitions. -/
theorem foldlM_meet?_congr {first first' : TypeRef} {others others' : List TypeRef}
    (h : ∀ type, type ∈ first :: others ↔ type ∈ first' :: others') :
    others.foldlM meet? first = others'.foldlM meet? first' := by
  have hset : {type | type ∈ first :: others} = {type | type ∈ first' :: others'} :=
    Set.ext h
  ext both
  rw [foldlM_meet?_eq_some_iff, foldlM_meet?_eq_some_iff, hset]

end TypeRef

namespace Inference

/-- The positions of one variable are taken in one by one. -/
theorem toOption_recordAll {fragment name : Name} {known : TypeRef} {types : List TypeRef} :
    (recordAll fragment [(name, known)] (types.map (.typed name))).toOption =
      (types.foldlM TypeRef.meet? known).map fun type => [(name, type)] := by
  induction types generalizing known with
  | nil => rfl
  | cons type rest ih =>
      rw [List.map_cons, recordAll, List.foldlM_cons]
      cases hmeet : known.meet? type with
      | none =>
          have hrecord : record fragment [(name, known)] (.typed name type) =
              .error (.ambiguousVariable fragment name known.text type.text) := by
            simp [record, hmeet]
          rw [hrecord]
          rfl
      | some both =>
          have hrecord : record fragment [(name, known)] (.typed name type) =
              .ok [(name, both)] := by
            simp [record, hmeet, put]
          rw [hrecord]
          exact ih

end Inference

/-- **Common refinements are greatest lower bounds.**  Order types by strictness: the stricter type
has the same lists around the same name and forbids null wherever the other does.  Two types have a
common refinement exactly if some type is below both, and it is then the greatest such type.  Hence
types that are taken in one by one, as the positions of a variable are, give the same type or fail
alike in any order and with any repetitions. -/
theorem TypeRef.meet?_isGLB :
    (∀ left right : TypeRef, left ≤ right ↔ left.innerName = right.innerName ∧
      List.Forall₂ (fun required required' => required' = true → required = true)
        left.levels right.levels) ∧
    (∀ left right : TypeRef,
      ((∃ both, left.meet? right = some both) ↔ ∃ type, type ≤ left ∧ type ≤ right) ∧
      ∀ both, left.meet? right = some both → IsGLB {left, right} both) ∧
    (∀ (first first' : TypeRef) (others others' : List TypeRef),
      (∀ type, type ∈ first :: others ↔ type ∈ first' :: others') →
      others.foldlM meet? first = others'.foldlM meet? first') ∧
    ∀ (fragment name : Name) (types types' : List TypeRef),
      (∀ type, type ∈ types ↔ type ∈ types') →
      (Inference.recordAll fragment [] (types.map (.typed name))).toOption =
        (Inference.recordAll fragment [] (types'.map (.typed name))).toOption := by
  refine ⟨fun _ _ => le_iff_levels,
    fun left right => ⟨exists_meet?_iff, fun both => meet?_eq_some_iff.1⟩,
    fun _ _ _ _ => foldlM_meet?_congr, ?_⟩
  intro fragment name types types' h
  cases types with
  | nil =>
      obtain rfl : types' = [] := List.eq_nil_iff_forall_not_mem.2 fun type => by simp [← h]
      rfl
  | cons first others =>
      cases types' with
      | nil => exact absurd ((h first).1 List.mem_cons_self) List.not_mem_nil
      | cons first' others' =>
          have hcongr := foldlM_meet?_congr h
          have hfirst : ∀ first others,
              (Inference.recordAll fragment [] ((first :: others).map (.typed name))).toOption =
                (others.foldlM meet? first).map fun type => [(name, type)] :=
            fun _ _ => Inference.toOption_recordAll
          rw [hfirst, hfirst, hcongr]

/-- The positions of a variable of the types `[Int]`, `[Int!]!` and `[[Int]]`: the first two agree
on `[Int!]!`, and no order of the three has an outcome. -/
theorem TypeRef.meet?_isGLB_lists :
    let loose : TypeRef := .list (.named "Int" false) false
    let strict : TypeRef := .list (.named "Int" true) true
    let nested : TypeRef := .list loose false
    loose.meet? strict = some strict ∧ IsGLB {loose, strict} strict ∧
    (Inference.recordAll "F" [] ([loose, strict, loose].map (.typed "v"))).toOption =
      some [("v", strict)] ∧
    (Inference.recordAll "F" [] ([loose, strict, loose].map (.typed "v"))).toOption =
      (Inference.recordAll "F" [] ([strict, loose].map (.typed "v"))).toOption ∧
    (Inference.recordAll "F" [] ([loose, strict, nested].map (.typed "v"))).toOption = none ∧
    [strict, nested].foldlM meet? loose = [strict, loose].foldlM meet? nested := by
  intro loose strict nested
  obtain ⟨-, htwo, hmany, huses⟩ := TypeRef.meet?_isGLB
  exact ⟨rfl, (htwo loose strict).2 strict rfl, rfl, huses "F" "v" _ _ (by simp), rfl,
    hmany loose nested _ _ (by simp; tauto)⟩

end ResponseModel
