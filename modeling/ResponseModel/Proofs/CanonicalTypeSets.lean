import Mathlib.Data.List.Destutter
import ResponseModel.Proofs.TypeSets

/-!
# Canonical type sets

Type sets are made of one name, of a list of names, or by adding a name to a type set.  Whatever the
order of the names and however often they are repeated, the names of the result are strictly
increasing (`TypeSet.Made.increasing`): they are the given names, sorted and without the neighbours
that are equal (`TypeSet.ofList_names`).  So equality of type sets is equality of their members, and
inclusion is a partial order in which a proper part has fewer members.  Main statement:
`TypeSet.faithful`.
-/

namespace ResponseModel

namespace TypeSet

/-- The type sets that can be made. -/
inductive Made : TypeSet → Prop
  | one (name : Name) : Made (.single name)
  | collected (names : List Name) : Made (.ofList names)
  | added {set : TypeSet} (h : Made set) (name : Name) : Made (set.insert name)

/-! ## Sorting -/

@[simp] theorem mem_ofList {names : List Name} {x : Name} :
    x ∈ (ofList names).names ↔ x ∈ names := by
  induction names with
  | nil => simp [ofList]
  | cons name rest ih =>
      rw [List.mem_cons, ← ih]
      exact mem_insertName

theorem increasing_ofList (names : List Name) : (ofList names).Increasing := by
  induction names with
  | nil => exact .nil
  | cons name rest ih => exact pairwise_insertName name ih

theorem mem_destutter'_ne {names : List Name} {first x : Name} :
    x ∈ names.destutter' (· ≠ ·) first ↔ x = first ∨ x ∈ names := by
  induction names generalizing first with
  | nil => simp
  | cons name rest ih =>
      rw [List.destutter'_cons]
      split
      · rw [List.mem_cons, ih, List.mem_cons]
      · next h =>
          obtain rfl := not_not.1 h
          rw [ih, List.mem_cons, ← or_assoc, or_self]

/-- Only repetitions are lost where equal neighbours are removed. -/
theorem mem_destutter_ne {names : List Name} {x : Name} :
    x ∈ names.destutter (· ≠ ·) ↔ x ∈ names := by
  cases names with
  | nil => rfl
  | cons first rest => rw [List.destutter_cons', mem_destutter'_ne, List.mem_cons]

/-- In a sorted list equal names are neighbours. -/
theorem pairwise_destutter_ne {names : List Name} (h : names.Pairwise (· ≤ ·)) :
    (names.destutter (· ≠ ·)).Pairwise (· < ·) := by
  have hle : (names.destutter (· ≠ ·)).IsChain (· ≤ ·) :=
    (h.sublist (List.destutter_sublist _ names)).isChain
  have hne : (names.destutter (· ≠ ·)).IsChain (· ≠ ·) := List.isChain_destutter _ names
  rw [← List.isChain_iff_pairwise]
  generalize names.destutter (· ≠ ·) = kept at hle hne
  induction kept with
  | nil => exact .nil
  | cons first rest ih =>
      cases rest with
      | nil => exact .singleton first
      | cons second rest =>
          rw [List.isChain_cons_cons] at hle hne ⊢
          exact ⟨lt_of_le_of_ne hle.1 hne.1, ih hle.2 hne.2⟩

/-- A type set holds the given names, sorted and without equal neighbours. -/
theorem ofList_names (names : List Name) :
    (ofList names).names = (names.mergeSort fun a b => decide (a ≤ b)).destutter (· ≠ ·) := by
  have hsorted : (names.mergeSort fun a b => decide (a ≤ b)).Pairwise (· ≤ ·) := by
    exact List.pairwise_mergeSort' (· ≤ ·) names
  refine List.Pairwise.eq_of_mem_iff (increasing_ofList names) (pairwise_destutter_ne hsorted) ?_
  intro x
  rw [mem_ofList, mem_destutter_ne, List.mem_mergeSort]

/-! ## Members -/

theorem Made.increasing {set : TypeSet} (h : set.Made) : set.Increasing := by
  induction h with
  | one name => exact increasing_single name
  | collected names => exact increasing_ofList names
  | added _ name ih => exact ih.insert name

/-- Adding a name is collecting the names again with one more. -/
theorem Made.insert_eq_ofList {set : TypeSet} (h : set.Made) (name : Name) :
    set.insert name = ofList (set.names ++ [name]) := by
  refine ext_mem (h.increasing.insert name) (increasing_ofList _) fun x => ?_
  rw [mem_insert, mem_ofList, List.mem_append, List.mem_singleton, or_comm]

theorem contains_iff {set : TypeSet} {name : Name} :
    set.contains name = true ↔ name ∈ set.names := by
  simp [contains]

theorem Made.eq_iff {set other : TypeSet} (hs : set.Made) (ho : other.Made) :
    set = other ↔ ∀ name, set.contains name = other.contains name := by
  constructor
  · rintro rfl name
    rfl
  · intro h
    refine ext_mem hs.increasing ho.increasing fun name => ?_
    rw [← contains_iff, ← contains_iff, h name]

theorem subset_iff_contains {set other : TypeSet} : set.subset other = true ↔
    ∀ name, set.contains name = true → other.contains name = true := by
  simp only [subset_iff, contains_iff]

theorem Made.size_lt {set other : TypeSet} (hs : set.Made)
    (h : set.subset other = true) (hnot : other.subset set = false) : set.size < other.size := by
  refine StrictSubset.size_lt hs.increasing ⟨subset_iff.1 h, ?_⟩
  rw [← Bool.not_eq_true, subset_iff] at hnot
  push Not at hnot
  exact hnot

/-- Inclusion is a partial order. -/
instance : IsPartialOrder {set : TypeSet // set.Made} fun set other =>
    set.1.subset other.1 = true where
  refl _ := subset_iff.2 fun _ hname => hname
  trans _ _ _ h h' :=
    subset_iff.2 fun name hname => subset_iff.1 h' name (subset_iff.1 h name hname)
  antisymm set other h h' := Subtype.ext <| ext_mem set.2.increasing other.2.increasing
    fun name => ⟨subset_iff.1 h name, subset_iff.1 h' name⟩

/-- **Type sets are faithful finite sets.**  A type set that is made of one name, of any list of
names or by adding names holds strictly increasing names, those that it was given: they are sorted,
and of equal neighbours one is kept.  Two such sets are equal exactly if they have the same members,
inclusion is what it says and is a partial order, adding a name adds nothing else, and a proper part
is smaller. -/
theorem faithful :
    (∀ name x, (single name).contains x = true ↔ x = name) ∧
    (∀ names, (ofList names).names =
        (names.mergeSort fun a b => decide (a ≤ b)).destutter (· ≠ ·) ∧
      ∀ x, (ofList names).contains x = true ↔ x ∈ names) ∧
    (∀ set : TypeSet, set.Made → set.Increasing ∧
      ∀ name, set.insert name = ofList (set.names ++ [name]) ∧
        ∀ x, (set.insert name).contains x = true ↔ x = name ∨ set.contains x = true) ∧
    (∀ set other : TypeSet, set.Made → other.Made →
      (set = other ↔ ∀ name, set.contains name = other.contains name) ∧
      (set.subset other = true ↔
        ∀ name, set.contains name = true → other.contains name = true) ∧
      (set.subset other = true → other.subset set = false → set.size < other.size)) ∧
    IsPartialOrder {set : TypeSet // set.Made} fun set other => set.1.subset other.1 = true := by
  refine ⟨?_, ?_, ?_, ?_, inferInstance⟩
  · intro name x
    rw [contains_iff, mem_single]
  · intro names
    refine ⟨ofList_names names, fun x => ?_⟩
    rw [contains_iff, mem_ofList]
  · intro set hset
    refine ⟨hset.increasing, fun name => ⟨hset.insert_eq_ofList name, fun x => ?_⟩⟩
    rw [contains_iff, contains_iff, mem_insert]
  · intro set other hset hother
    exact ⟨hset.eq_iff hother, subset_iff_contains, hset.size_lt⟩

/-- The names `Human`, `Character` and `Human` again make the set that `Human` added to `Character`
makes, and `Character` alone is a proper part of it. -/
theorem faithful_characters :
    let base := single "Character"
    let wide := ofList ["Human", "Character", "Human"]
    wide.names = ["Character", "Human"] ∧ wide.Increasing ∧ base.insert "Human" = wide ∧
    base.subset wide = true ∧ wide.subset base = false ∧ base.size < wide.size := by
  intro base wide
  obtain ⟨-, -, hmade, htwo, -⟩ := faithful
  have hbase : base.Made := .one "Character"
  have hwide : wide.Made := .collected _
  have hsubset : base.subset wide = true := by decide +kernel
  have hnot : wide.subset base = false := by decide +kernel
  refine ⟨by decide +kernel, (hmade wide hwide).1, ?_, hsubset, hnot,
    (htwo base wide hbase hwide).2.2 hsubset hnot⟩
  refine (htwo _ wide (hbase.added "Human") hwide).1.2 fun name => ?_
  rw [Bool.eq_iff_iff, contains_iff, contains_iff, mem_insert, mem_single, mem_ofList]
  simp only [List.mem_cons, List.not_mem_nil]
  tauto

end TypeSet

end ResponseModel
