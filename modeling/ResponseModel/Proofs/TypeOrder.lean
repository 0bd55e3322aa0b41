import Mathlib.Order.Defs.PartialOrder
import ResponseModel.Proofs.Success
import ResponseModel.Schema.Lookup

/-!
# How strict a type is

Types that have the same lists around the same name differ in the levels that forbid null.  They are
ordered by strictness, the stricter type below.  The common refinement of two types is their
greatest lower bound (`le_meet?_iff`), other types have none (`meet?_eq_none_iff`), and the order
passes to the types of the model (`Schema.asStrictAs_of_modelType`).
-/

namespace ResponseModel

namespace TypeRef

/-- The first type has the same lists around the same name as the second, and forbids null at every
level where the second does. -/
def AsStrictAs : TypeRef → TypeRef → Prop
  | .named name required, .named name' required' =>
      name = name' ∧ (required' = true → required = true)
  | .list item required, .list item' required' =>
      item.AsStrictAs item' ∧ (required' = true → required = true)
  | _, _ => False

instance : LE TypeRef := ⟨AsStrictAs⟩

@[simp] theorem named_le_named {name name' : Name} {required required' : Bool} :
    named name required ≤ named name' required' ↔
      name = name' ∧ (required' = true → required = true) := Iff.rfl

@[simp] theorem list_le_list {item item' : TypeRef} {required required' : Bool} :
    list item required ≤ list item' required' ↔
      item ≤ item' ∧ (required' = true → required = true) := Iff.rfl

@[simp] theorem not_named_le_list {name : Name} {item : TypeRef} {required required' : Bool} :
    ¬named name required ≤ list item required' := id

@[simp] theorem not_list_le_named {name : Name} {item : TypeRef} {required required' : Bool} :
    ¬list item required ≤ named name required' := id

instance : PartialOrder TypeRef where
  le_refl type := by
    induction type with
    | named name required => simp
    | list item required ih => simp [ih]
  le_trans first second third h h' := by
    induction first generalizing second third with
    | named name required => cases second <;> cases third <;> simp_all
    | list item required ih =>
        cases second with
        | named name' required' => simp at h
        | list item' required' =>
            cases third with
            | named name'' required'' => simp at h'
            | list item'' required'' =>
                rw [list_le_list] at h h' ⊢
                exact ⟨ih item' item'' h.1 h'.1, fun hrequired => h.2 (h'.2 hrequired)⟩
  le_antisymm first second h h' := by
    induction first generalizing second with
    | named name required =>
        cases second with
        | named name' required' =>
            rw [named_le_named] at h h'
            rw [h.1, Bool.eq_iff_iff.2 ⟨h'.2, h.2⟩]
        | list item' required' => simp at h
    | list item required ih =>
        cases second with
        | named name' required' => simp at h
        | list item' required' =>
            rw [list_le_list] at h h'
            rw [ih item' h.1 h'.1, Bool.eq_iff_iff.2 ⟨h'.2, h.2⟩]

/-- The types below a common refinement are those below both types. -/
theorem le_meet?_iff {left right both : TypeRef} (h : left.meet? right = some both)
    {type : TypeRef} : type ≤ both ↔ type ≤ left ∧ type ≤ right := by
  fun_induction meet? left right generalizing both type with
  | case1 name required required' =>
      obtain rfl := Option.some.inj h
      cases type with
      | named name' required'' =>
          simp only [named_le_named, Bool.or_eq_true, or_imp]
          tauto
      | list item required'' => simp
  | case2 => cases h
  | case3 left required right required' ih =>
      obtain ⟨item, hitem, rfl⟩ := Option.map_eq_some_iff.1 h
      cases type with
      | named name required'' => simp
      | list item' required'' =>
          simp only [list_le_list, ih hitem, Bool.or_eq_true, or_imp]
          tauto
  | case4 => cases h

theorem meet?_eq_left {left right : TypeRef} (h : left ≤ right) : left.meet? right = some left := by
  induction left generalizing right with
  | named name required =>
      cases right with
      | named name' required' =>
          obtain ⟨rfl, hrequired⟩ := named_le_named.1 h
          rw [meet?, if_pos rfl, Bool.or_eq_left_iff_imp.2 hrequired]
      | list item' required' => simp at h
  | list item required ih =>
      cases right with
      | named name' required' => simp at h
      | list item' required' =>
          obtain ⟨hitem, hrequired⟩ := list_le_list.1 h
          rw [meet?, ih hitem, Option.map_some, Bool.or_eq_left_iff_imp.2 hrequired]

/-- The number of lists around the innermost name. -/
def listDepth : TypeRef → Nat
  | .named .. => 0
  | .list item _ => item.listDepth + 1

/-- The types have the same lists around the same name. -/
def Alike (type other : TypeRef) : Prop :=
  type.listDepth = other.listDepth ∧ type.innerName = other.innerName

instance (type other : TypeRef) : Decidable (type.Alike other) :=
  inferInstanceAs (Decidable (_ ∧ _))

theorem Alike.symm {type other : TypeRef} (h : type.Alike other) : other.Alike type :=
  ⟨h.1.symm, h.2.symm⟩

theorem Alike.trans {first second third : TypeRef} (h : first.Alike second)
    (h' : second.Alike third) : first.Alike third := ⟨h.1.trans h'.1, h.2.trans h'.2⟩

@[simp] theorem list_alike_list {item item' : TypeRef} {required required' : Bool} :
    (list item required).Alike (list item' required') ↔ item.Alike item' := by
  simp [Alike, listDepth, innerName]

theorem alike_of_le {type other : TypeRef} (h : type ≤ other) : type.Alike other := by
  induction type generalizing other with
  | named name required =>
      cases other with
      | named name' required' => exact ⟨rfl, (named_le_named.1 h).1⟩
      | list item' required' => simp at h
  | list item required ih =>
      cases other with
      | named name' required' => simp at h
      | list item' required' => exact list_alike_list.2 (ih (list_le_list.1 h).1)

/-- Two types have no common refinement exactly if they are not alike. -/
theorem meet?_eq_none_iff {left right : TypeRef} :
    left.meet? right = none ↔ ¬left.Alike right := by
  fun_induction meet? left right with
  | case1 name required required' => simp [Alike, listDepth, innerName]
  | case2 name required name' required' hne => simp [Alike, listDepth, innerName, hne]
  | case3 left required right required' ih => rw [Option.map_eq_none_iff, ih, list_alike_list]
  | case4 left right hnamed hlist =>
      cases left with
      | named name required =>
          cases right with
          | named name' required' => exact absurd rfl (hnamed name required name' required' rfl)
          | list item' required' => simp [Alike, listDepth]
      | list item required =>
          cases right with
          | named name' required' => simp [Alike, listDepth]
          | list item' required' => exact absurd rfl (hlist item required item' required' rfl)

end TypeRef

namespace ModelType

/-- The first type has the same lists around the same named type as the second, and forbids null at
every level where the second does. -/
inductive AsStrictAs : ModelType → ModelType → Prop
  | named (type : NamedType) : AsStrictAs (.named type) (.named type)
  | list {type other : ModelType} : type.AsStrictAs other → AsStrictAs (.list type) (.list other)
  | nonNull {type other : ModelType} :
      type.AsStrictAs other → AsStrictAs (.nonNull type) (.nonNull other)
  | stricter {type other : ModelType} : type.AsStrictAs other → AsStrictAs (.nonNull type) other

theorem AsStrictAs.wrap {type other : ModelType} (h : type.AsStrictAs other)
    {required required' : Bool} (hrequired : required' = true → required = true) :
    (Schema.wrap required type).AsStrictAs (Schema.wrap required' other) := by
  cases required' with
  | false =>
      cases required with
      | false => exact h
      | true => exact h.stricter
  | true =>
      rw [hrequired rfl]
      exact h.nonNull

end ModelType

/-- A stricter type is stricter in the model. -/
theorem Schema.asStrictAs_of_modelType {schema : Schema} {type other : TypeRef} (h : type ≤ other)
    {modelType modelType' : ModelType} (htype : schema.modelType type = .ok modelType)
    (hother : schema.modelType other = .ok modelType') : modelType.AsStrictAs modelType' := by
  induction type generalizing other modelType modelType' with
  | named name required =>
      cases other with
      | list item' required' => simp at h
      | named name' required' =>
          obtain ⟨rfl, hrequired⟩ := TypeRef.named_le_named.1 h
          obtain ⟨leaf, hleaf, rfl⟩ := except_map_eq_ok.1 htype
          obtain ⟨leaf', hleaf', rfl⟩ := except_map_eq_ok.1 hother
          obtain rfl := Except.ok.inj (hleaf.symm.trans hleaf')
          exact (ModelType.AsStrictAs.named leaf).wrap hrequired
  | list item required ih =>
      cases other with
      | named name' required' => simp at h
      | list item' required' =>
          obtain ⟨hitem, hrequired⟩ := TypeRef.list_le_list.1 h
          obtain ⟨inner, hinner, rfl⟩ := except_map_eq_ok.1 htype
          obtain ⟨inner', hinner', rfl⟩ := except_map_eq_ok.1 hother
          exact (ih hitem hinner hinner').list.wrap hrequired

end ResponseModel
