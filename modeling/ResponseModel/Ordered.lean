/-!
# Names and ordered collections

Everything the model lists keeps the order in which it was first met.  Sets are therefore
lists without repetition and finite maps are lists of pairs with distinct keys; this file has
the few operations that keep them so.
-/

namespace ResponseModel

/-- A GraphQL name: of a type, a field, a fragment, a variable. -/
abbrev Name := String

/-! ## Ordered sets -/

/-- Adds an element at the end, unless it is already there. -/
def insertNew {α : Type} [DecidableEq α] (xs : List α) (a : α) : List α :=
  if a ∈ xs then xs else xs ++ [a]

theorem mem_insertNew {α : Type} [DecidableEq α] {xs : List α} {a x : α} :
    x ∈ insertNew xs a ↔ x ∈ xs ∨ x = a := by
  unfold insertNew
  split <;> simp
  rintro rfl
  assumption

theorem nodup_insertNew {α : Type} [DecidableEq α] {xs : List α} (h : xs.Nodup) (a : α) :
    (insertNew xs a).Nodup := by
  unfold insertNew
  split
  · exact h
  · next ha =>
      refine List.nodup_append.2 ⟨h, by simp, fun x hx y hy e => ha ?_⟩
      rw [List.mem_singleton] at hy
      rwa [← hy, ← e]

theorem insertNew_cons_of_ne {α : Type} [DecidableEq α] {xs : List α} {x a : α} (h : x ≠ a) :
    insertNew (x :: xs) a = x :: insertNew xs a := by
  have hmem : a ∈ x :: xs ↔ a ∈ xs := by simp [h.symm]
  unfold insertNew
  by_cases ha : a ∈ xs
  · rw [if_pos ha, if_pos (hmem.2 ha)]
  · rw [if_neg ha, if_neg fun h => ha (hmem.1 h), List.cons_append]

theorem mem_foldl_insertNew {α : Type} [DecidableEq α] {xs acc : List α} {x : α} :
    x ∈ xs.foldl insertNew acc ↔ x ∈ acc ∨ x ∈ xs := by
  induction xs generalizing acc with
  | nil => simp
  | cons a rest ih => simp [ih, mem_insertNew, or_assoc]

theorem nodup_foldl_insertNew {α : Type} [DecidableEq α] (xs : List α) {acc : List α}
    (h : acc.Nodup) : (xs.foldl insertNew acc).Nodup := by
  induction xs generalizing acc with
  | nil => exact h
  | cons a rest ih => exact ih (nodup_insertNew h a)

/-- The elements of a list in first-occurrence order, each once. -/
def distinct {α : Type} [DecidableEq α] (xs : List α) : List α :=
  xs.foldl insertNew []

@[simp] theorem mem_distinct {α : Type} [DecidableEq α] {xs : List α} {x : α} :
    x ∈ distinct xs ↔ x ∈ xs := by
  simp [distinct, mem_foldl_insertNew]

theorem nodup_distinct {α : Type} [DecidableEq α] (xs : List α) : (distinct xs).Nodup :=
  nodup_foldl_insertNew xs .nil

/-! ## Ordered maps -/

/-- Binds a key.  A key that is already bound keeps its place and gets the new value. -/
def put {β : Type} (key : Name) (value : β) : List (Name × β) → List (Name × β)
  | [] => [(key, value)]
  | (k, v) :: rest => if k = key then (k, value) :: rest else (k, v) :: put key value rest

theorem lookup_cons_ite {β : Type} (key k : Name) (value : β) (rest : List (Name × β)) :
    List.lookup k ((key, value) :: rest) = if k = key then some value else rest.lookup k := by
  by_cases h : k = key
  · simp [h]
  · rw [List.lookup_cons, beq_false_of_ne h, if_neg h]

theorem lookup_put {β : Type} (key k : Name) (value : β) (entries : List (Name × β)) :
    (put key value entries).lookup k = if k = key then some value else entries.lookup k := by
  induction entries with
  | nil => rw [put, lookup_cons_ite]
  | cons entry rest ih =>
      obtain ⟨k', v'⟩ := entry
      by_cases h' : k' = key
      · by_cases h : k = key <;> simp [put, lookup_cons_ite, h', h]
      · by_cases hk : k = k' <;> simp [put, lookup_cons_ite, h', hk, ih]

/-- Binds a key only if it is not bound yet. -/
def putNew {β : Type} (key : Name) (value : β) (entries : List (Name × β)) : List (Name × β) :=
  if entries.any (fun entry => entry.1 = key) then entries else entries ++ [(key, value)]

end ResponseModel
