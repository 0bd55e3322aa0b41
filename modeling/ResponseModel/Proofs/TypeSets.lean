import Mathlib.Data.List.Sort
import Mathlib.Data.String.Basic
import ResponseModel.Proofs.PossibleTypes
import ResponseModel.Shape.Narrowing

/-!
# The type sets of a field

A type set is increasing, so that it is determined by its members (`TypeSet.ext_mem`) and a
proper part of it is smaller (`TypeSet.StrictSubset.size_lt`).  The type sets of a field are the
base and, for every concrete type, the set of the narrowing conditions that it satisfies
(`mem_typeSets`); they are listed without repetition (`nodup_typeSets`).  The set of a concrete
type is the largest of those that the type satisfies (`subset_typeSetOf`).
-/

namespace ResponseModel

namespace TypeSet

/-! ## Members -/

/-- The names of the set are strictly increasing. -/
def Increasing (set : TypeSet) : Prop := set.names.Pairwise (· < ·)

/-- Every member of the first set is a member of the second, which has one more. -/
def StrictSubset (set other : TypeSet) : Prop :=
  (∀ name ∈ set.names, name ∈ other.names) ∧ ∃ name ∈ other.names, name ∉ set.names

@[simp] theorem mem_insertName {name x : Name} {names : List Name} :
    x ∈ insertName name names ↔ x = name ∨ x ∈ names := by
  induction names with
  | nil => simp [insertName]
  | cons first rest ih =>
      unfold insertName
      split
      · rw [List.mem_cons]
      · split
        · next h => subst h; simp
        · rw [List.mem_cons, List.mem_cons, ih, or_left_comm]

theorem pairwise_insertName (name : Name) {names : List Name} (h : names.Pairwise (· < ·)) :
    (insertName name names).Pairwise (· < ·) := by
  induction names with
  | nil => simp [insertName]
  | cons first rest ih =>
      obtain ⟨hfirst, hrest⟩ := List.pairwise_cons.1 h
      unfold insertName
      split
      · next hlt =>
          refine List.pairwise_cons.2 ⟨fun x hx => ?_, h⟩
          rcases List.mem_cons.1 hx with rfl | hx
          · exact hlt
          · exact lt_trans hlt (hfirst x hx)
      · next hlt =>
          split
          · exact h
          · next hne =>
              refine List.pairwise_cons.2 ⟨fun x hx => ?_, ih hrest⟩
              rcases mem_insertName.1 hx with rfl | hx
              · exact lt_of_le_of_ne (not_lt.1 hlt) (Ne.symm hne)
              · exact hfirst x hx

@[simp] theorem mem_insert {set : TypeSet} {name x : Name} :
    x ∈ (set.insert name).names ↔ x = name ∨ x ∈ set.names := mem_insertName

@[simp] theorem mem_single {name x : Name} : x ∈ (single name).names ↔ x = name := by
  simp [single]

theorem increasing_single (name : Name) : (single name).Increasing := by
  simp [Increasing, single]

theorem Increasing.insert {set : TypeSet} (h : set.Increasing) (name : Name) :
    (set.insert name).Increasing := pairwise_insertName name h

theorem mem_foldl_insert {names : List Name} {set : TypeSet} {x : Name} :
    x ∈ (names.foldl TypeSet.insert set).names ↔ x ∈ set.names ∨ x ∈ names := by
  induction names generalizing set with
  | nil => simp
  | cons name rest ih =>
      rw [List.foldl_cons, ih, mem_insert, List.mem_cons, or_comm (a := x = name), or_assoc]

theorem Increasing.foldl_insert (names : List Name) {set : TypeSet} (h : set.Increasing) :
    (names.foldl TypeSet.insert set).Increasing := by
  induction names generalizing set with
  | nil => exact h
  | cons name rest ih => exact ih (h.insert name)

theorem Increasing.nodup {set : TypeSet} (h : set.Increasing) : set.names.Nodup :=
  h.imp ne_of_lt

/-- A type set is determined by its members. -/
theorem ext_mem {set other : TypeSet} (hs : set.Increasing) (ho : other.Increasing)
    (h : ∀ name, name ∈ set.names ↔ name ∈ other.names) : set = other := by
  obtain ⟨names⟩ := set
  obtain ⟨names'⟩ := other
  rw [TypeSet.mk.injEq]
  exact List.Pairwise.eq_of_mem_iff hs ho h

theorem subset_iff {set other : TypeSet} :
    set.subset other = true ↔ ∀ name ∈ set.names, name ∈ other.names := by
  simp [subset, contains]

theorem strictSubset_of_ne {set other : TypeSet} (hs : set.Increasing) (ho : other.Increasing)
    (h : ∀ name ∈ set.names, name ∈ other.names) (hne : set ≠ other) :
    set.StrictSubset other := by
  refine ⟨h, ?_⟩
  by_contra hnone
  push Not at hnone
  exact hne (ext_mem hs ho fun name => ⟨h name, hnone name⟩)

/-- A type set with one member is determined by any member. -/
theorem eq_single {set : TypeSet} {name : Name} (hmem : name ∈ set.names) (hsize : set.size = 1) :
    set = .single name := by
  obtain ⟨names⟩ := set
  obtain ⟨first, rfl⟩ := List.length_eq_one_iff.1 hsize
  rw [List.mem_singleton.1 hmem]
  rfl

/-- A proper part is smaller. -/
theorem StrictSubset.size_lt {set other : TypeSet} (hs : set.Increasing)
    (h : set.StrictSubset other) : set.size < other.size := by
  obtain ⟨hsub, extra, hextra, hnot⟩ := h
  have hcons : (extra :: set.names).Subperm other.names := by
    refine List.subperm_of_subset (List.nodup_cons.2 ⟨hnot, hs.nodup⟩) ?_
    intro x hx
    rcases List.mem_cons.1 hx with rfl | hx
    · exact hextra
    · exact hsub x hx
  have hlen := hcons.length_le
  rw [List.length_cons] at hlen
  exact hlen

/-! ## The order of type sets -/

theorem precedes_iff {left right : TypeSet} : left.precedes right = true ↔
    left.size < right.size ∨ left.size = right.size ∧ left.names < right.names := by
  simp [precedes]

theorem precedes_trans {a b c : TypeSet} (hab : a.precedes b = true) (hbc : b.precedes c = true) :
    a.precedes c = true := by
  rw [precedes_iff] at *
  rcases hab with hab | ⟨hab, hab'⟩ <;> rcases hbc with hbc | ⟨hbc, hbc'⟩
  · exact .inl (hab.trans hbc)
  · exact .inl (hab.trans_eq hbc)
  · exact .inl (hab.trans_lt hbc)
  · exact .inr ⟨hab.trans hbc, hab'.trans hbc'⟩

theorem precedes_of_not {left right : TypeSet} (h : ¬left.precedes right = true)
    (hne : left ≠ right) : right.precedes left = true := by
  rw [precedes_iff] at *
  push Not at h
  rcases lt_or_eq_of_le h.1 with hlt | heq
  · exact .inl hlt
  · refine .inr ⟨heq, lt_of_le_of_ne (h.2 heq.symm) fun hnames => hne ?_⟩
    obtain ⟨names⟩ := left
    obtain ⟨names'⟩ := right
    rw [show names' = names from hnames]

theorem precedes_ne {left right : TypeSet} (h : left.precedes right = true) : left ≠ right := by
  rintro rfl
  rw [precedes_iff] at h
  rcases h with h | ⟨-, h⟩
  · exact lt_irrefl _ h
  · exact lt_irrefl _ h

@[simp] theorem mem_insertInOrder {set x : TypeSet} {sets : List TypeSet} :
    x ∈ insertInOrder set sets ↔ x = set ∨ x ∈ sets := by
  induction sets with
  | nil => simp [insertInOrder]
  | cons first rest ih =>
      unfold insertInOrder
      split
      · rw [List.mem_cons]
      · split
        · next h => subst h; simp
        · rw [List.mem_cons, List.mem_cons, ih, or_left_comm]

theorem pairwise_insertInOrder (set : TypeSet) {sets : List TypeSet}
    (h : sets.Pairwise (·.precedes · = true)) :
    (insertInOrder set sets).Pairwise (·.precedes · = true) := by
  induction sets with
  | nil => simp [insertInOrder]
  | cons first rest ih =>
      obtain ⟨hfirst, hrest⟩ := List.pairwise_cons.1 h
      unfold insertInOrder
      split
      · next hlt =>
          refine List.pairwise_cons.2 ⟨fun x hx => ?_, h⟩
          rcases List.mem_cons.1 hx with rfl | hx
          · exact hlt
          · exact precedes_trans hlt (hfirst x hx)
      · next hlt =>
          split
          · exact h
          · next hne =>
              refine List.pairwise_cons.2 ⟨fun x hx => ?_, ih hrest⟩
              rcases mem_insertInOrder.1 hx with rfl | hx
              · exact precedes_of_not hlt hne
              · exact hfirst x hx

@[simp] theorem mem_inOrder {sets : List TypeSet} {x : TypeSet} :
    x ∈ inOrder sets ↔ x ∈ sets := by
  induction sets with
  | nil => simp [inOrder]
  | cons set rest ih =>
      rw [List.mem_cons, ← ih]
      exact mem_insertInOrder

theorem pairwise_inOrder (sets : List TypeSet) :
    (inOrder sets).Pairwise (·.precedes · = true) := by
  induction sets with
  | nil => exact .nil
  | cons set rest ih => exact pairwise_insertInOrder set ih

end TypeSet

namespace Schema

/-! ## Narrowing -/

variable {schema : Schema} {fieldType : Name} {conditions : List Name}

theorem mem_narrowing {name : Name} : name ∈ schema.narrowing fieldType conditions ↔
    name ∈ conditions ∧ name ≠ fieldType ∧
      ∃ concrete, schema.Possible fieldType concrete ∧ ¬schema.Possible name concrete := by
  simp [narrowing, covers, mem_possibleTypes]

theorem mem_typeSetOf {narrowing : List Name} {concrete x : Name} :
    x ∈ (schema.typeSetOf fieldType narrowing concrete).names ↔
      x = fieldType ∨ x ∈ narrowing ∧ schema.Possible x concrete := by
  simp [typeSetOf, TypeSet.mem_foldl_insert, mem_possibleTypes]

theorem increasing_typeSetOf (narrowing : List Name) (concrete : Name) :
    (schema.typeSetOf fieldType narrowing concrete).Increasing :=
  (TypeSet.increasing_single fieldType).foldl_insert _

/-- The type sets of a field depend on which conditions there are, not on their order. -/
theorem typeSets_congr {conditions' : List Name}
    (h : ∀ name, name ∈ conditions ↔ name ∈ conditions') :
    schema.typeSets fieldType conditions = schema.typeSets fieldType conditions' := by
  have hset : schema.typeSetOf fieldType (schema.narrowing fieldType conditions) =
      schema.typeSetOf fieldType (schema.narrowing fieldType conditions') := by
    funext concrete
    refine TypeSet.ext_mem (increasing_typeSetOf _ _) (increasing_typeSetOf _ _) fun name => ?_
    rw [mem_typeSetOf, mem_typeSetOf, mem_narrowing, mem_narrowing, h]
  rw [typeSets, typeSets, hset]

/-- The type sets of a field are the base and those of its concrete types. -/
theorem mem_typeSets {set : TypeSet} : set ∈ schema.typeSets fieldType conditions ↔
    set = .single fieldType ∨ ∃ concrete, schema.Possible fieldType concrete ∧
      set = schema.typeSetOf fieldType (schema.narrowing fieldType conditions) concrete := by
  simp [typeSets, mem_possibleTypes, eq_comm]

theorem nodup_typeSets : (schema.typeSets fieldType conditions).Nodup :=
  (TypeSet.pairwise_inOrder _).imp TypeSet.precedes_ne

theorem increasing_of_mem_typeSets {set : TypeSet}
    (h : set ∈ schema.typeSets fieldType conditions) : set.Increasing := by
  rcases mem_typeSets.1 h with rfl | ⟨concrete, -, rfl⟩
  · exact TypeSet.increasing_single fieldType
  · exact increasing_typeSetOf _ concrete

theorem fieldType_mem_of_mem_typeSets {set : TypeSet}
    (h : set ∈ schema.typeSets fieldType conditions) : fieldType ∈ set.names := by
  rcases mem_typeSets.1 h with rfl | ⟨concrete, -, rfl⟩
  · exact TypeSet.mem_single.2 rfl
  · exact mem_typeSetOf.2 (.inl rfl)

/-- The members of a type set besides the field type are narrowing conditions. -/
theorem mem_narrowing_of_mem_typeSets {set : TypeSet}
    (h : set ∈ schema.typeSets fieldType conditions) {x : Name} (hx : x ∈ set.names) :
    x = fieldType ∨ x ∈ schema.narrowing fieldType conditions := by
  rcases mem_typeSets.1 h with rfl | ⟨concrete, -, rfl⟩
  · exact .inl (TypeSet.mem_single.1 hx)
  · rcases mem_typeSetOf.1 hx with hx | ⟨hx, -⟩
    · exact .inl hx
    · exact .inr hx

/-- A type set of a field that a concrete type satisfies is part of the set of that type. -/
theorem subset_typeSetOf {set : TypeSet} (h : set ∈ schema.typeSets fieldType conditions)
    {concrete : Name} (hc : ∀ x ∈ set.names, schema.Possible x concrete) :
    ∀ x ∈ set.names,
      x ∈ (schema.typeSetOf fieldType (schema.narrowing fieldType conditions) concrete).names := by
  intro x hx
  rcases mem_narrowing_of_mem_typeSets h hx with hfield | hnarrow
  · exact mem_typeSetOf.2 (.inl hfield)
  · exact mem_typeSetOf.2 (.inr ⟨hnarrow, hc x hx⟩)

/-- A concrete type of the field satisfies every member of its type set. -/
theorem possible_of_mem_typeSetOf {narrowing : List Name} {concrete x : Name}
    (hc : schema.Possible fieldType concrete)
    (hx : x ∈ (schema.typeSetOf fieldType narrowing concrete).names) :
    schema.Possible x concrete := by
  rcases mem_typeSetOf.1 hx with rfl | ⟨-, h⟩
  · exact hc
  · exact h

/-- A fragment that applies to a type set is on a type that all concrete types of the set
satisfy. -/
theorem possible_of_applies {set : TypeSet} {type : Name}
    (h : schema.applies set (schema.commonTypes set.names) type = true) :
    ∀ concrete ∈ schema.commonTypes set.names, schema.Possible type concrete := by
  intro concrete hconcrete
  simp only [applies, TypeSet.contains, Bool.or_eq_true, decide_eq_true_eq, Bool.and_eq_true,
    covers_iff] at h
  rcases h with hmem | ⟨-, hcover⟩
  · exact (mem_commonTypes (List.ne_nil_of_mem hmem)).1 hconcrete type hmem
  · exact hcover concrete hconcrete

/-- A fragment that applies to a type set applies wherever there are fewer concrete types, if there
are any. -/
theorem applies_of_subset {set set' : TypeSet} {possible : List Name} {type : Name}
    (hne : possible ≠ [])
    (hsub : ∀ concrete ∈ possible, concrete ∈ schema.commonTypes set'.names)
    (h : schema.applies set' (schema.commonTypes set'.names) type = true) :
    schema.applies set possible type = true := by
  simp only [applies, Bool.or_eq_true, Bool.and_eq_true, covers_iff]
  exact .inr ⟨by simpa using hne,
    fun concrete hconcrete => possible_of_applies h concrete (hsub concrete hconcrete)⟩

/-- For the shape of a concrete type, a fragment on one of the type conditions applies exactly if
the concrete type is possible for the condition. -/
theorem applies_typeSetOf_iff {concrete type : Name} (hc : schema.Possible fieldType concrete)
    (ht : type ∈ conditions) :
    let set := schema.typeSetOf fieldType (schema.narrowing fieldType conditions) concrete
    schema.applies set (schema.commonTypes set.names) type = true ↔
      schema.Possible type concrete := by
  intro set
  have hne : set.names ≠ [] := List.ne_nil_of_mem (mem_typeSetOf.2 (.inl rfl))
  have hcommon : concrete ∈ schema.commonTypes set.names :=
    (mem_commonTypes hne).2 fun x hx => possible_of_mem_typeSetOf hc hx
  constructor
  · intro happlies
    exact possible_of_applies happlies concrete hcommon
  · intro hpossible
    simp only [applies, TypeSet.contains, Bool.or_eq_true, decide_eq_true_eq, Bool.and_eq_true,
      covers_iff]
    by_cases hmem : type ∈ set.names
    · exact .inl hmem
    · -- a condition that does not narrow is satisfied by every concrete type of the field
      refine .inr ⟨by simpa using List.ne_nil_of_mem hcommon, fun c hcs => ?_⟩
      by_contra hnot
      have hfield : schema.Possible fieldType c :=
        (mem_commonTypes hne).1 hcs fieldType (mem_typeSetOf.2 (.inl rfl))
      refine hmem (mem_typeSetOf.2 (.inr ⟨mem_narrowing.2 ⟨ht, ?_, c, hfield, hnot⟩, hpossible⟩))
      rintro rfl
      exact hnot hfield

end Schema

end ResponseModel
