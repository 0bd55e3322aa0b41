import Mathlib.Data.List.Induction
import ResponseModel.Proofs.Success

/-!
# Repetitions

Much of what is made from a list depends only on its elements in the order of their first
occurrence: a later occurrence of an element that was met before changes nothing.  `foldl_distinct`
says when this is so for what is computed element by element, and the lemmas after it say so for the
operations on lists that keep it.
-/

namespace ResponseModel

variable {α β σ : Type} [DecidableEq α] [DecidableEq β]

theorem distinct_append (xs ys : List α) :
    distinct (xs ++ ys) = ys.foldl insertNew (distinct xs) := List.foldl_append

theorem distinct_concat (xs : List α) (x : α) : distinct (xs ++ [x]) = insertNew (distinct xs) x :=
  distinct_append xs [x]

theorem foldl_insertNew_of_subset {xs acc : List α} (h : xs ⊆ acc) :
    xs.foldl insertNew acc = acc := by
  induction xs with
  | nil => rfl
  | cons x rest ih =>
      obtain ⟨hx, hrest⟩ := List.cons_subset.1 h
      rw [List.foldl_cons, insertNew, if_pos hx, ih hrest]

/-- What is computed element by element does not depend on repetitions, if every element that was
met leaves it as it is. -/
theorem foldl_distinct {step : σ → α → σ} {init : σ}
    (h : ∀ (xs : List α) (x : α), x ∈ xs → step (xs.foldl step init) x = xs.foldl step init)
    (xs : List α) : (distinct xs).foldl step init = xs.foldl step init := by
  -- by induction on the last element, which is either new or absorbed
  induction xs using List.reverseRecOn with
  | nil => rfl
  | append_singleton xs x ih =>
      rw [distinct_concat, List.foldl_append, List.foldl_cons, List.foldl_nil, insertNew]
      split
      · next hx =>
          rw [ih, h xs x (mem_distinct.1 hx)]
      · rw [List.foldl_append, ih, List.foldl_cons, List.foldl_nil]

/-- Lists with the same first occurrences give the same if elements that were met are absorbed. -/
theorem foldl_congr_distinct {step : σ → α → σ} {init : σ}
    (h : ∀ (xs : List α) (x : α), x ∈ xs → step (xs.foldl step init) x = xs.foldl step init)
    {xs ys : List α} (heq : distinct xs = distinct ys) :
    xs.foldl step init = ys.foldl step init := by
  rw [← foldl_distinct h xs, heq, foldl_distinct h ys]

/-- Every element of a list is replaced by a list of its own. -/
theorem distinct_flatMap_congr (f : α → List β) {xs ys : List α} (h : distinct xs = distinct ys) :
    distinct (xs.flatMap f) = distinct (ys.flatMap f) := by
  have hfold : ∀ zs : List α, distinct (zs.flatMap f) =
      zs.foldl (fun acc x => (f x).foldl insertNew acc) [] := fun zs => List.foldl_flatMap
  rw [hfold, hfold]
  refine foldl_congr_distinct (fun zs x hx => ?_) h
  rw [← hfold]
  refine foldl_insertNew_of_subset fun b hb => ?_
  exact mem_distinct.2 (List.mem_flatMap.2 ⟨x, hx, hb⟩)

theorem distinct_append_congr {xs xs' ys ys' : List α} (h : distinct xs = distinct xs')
    (h' : distinct ys = distinct ys') : distinct (xs ++ ys) = distinct (xs' ++ ys') := by
  rw [distinct_append, distinct_append, h]
  refine foldl_congr_distinct (fun zs x hx => ?_) h'
  rw [insertNew, if_pos (mem_foldl_insertNew.2 (.inr hx))]

theorem distinct_append_of_subset {xs ys : List α} (h : ys ⊆ xs) :
    distinct (xs ++ ys) = distinct xs := by
  rw [distinct_append]
  exact foldl_insertNew_of_subset fun y hy => mem_distinct.2 (h hy)

/-- What comes one after the other has the same first occurrences if each part has, after the parts
before it. -/
theorem distinct_append_append_congr {before own xs xs' ys ys' : List α}
    (h : distinct (before ++ own ++ xs) = distinct (before ++ own ++ xs'))
    (h' : distinct (before ++ own ++ xs ++ ys) = distinct (before ++ own ++ xs ++ ys')) :
    distinct (before ++ (own ++ xs ++ ys)) = distinct (before ++ (own ++ (xs' ++ ys'))) := by
  have hsame := h'.trans (distinct_append_congr h rfl)
  simpa only [List.append_assoc] using hsame

theorem distinct_map_congr (f : α → β) {xs ys : List α} (h : distinct xs = distinct ys) :
    distinct (xs.map f) = distinct (ys.map f) := by
  rw [List.map_eq_flatMap, List.map_eq_flatMap]
  exact distinct_flatMap_congr _ h

theorem distinct_filterMap_congr (f : α → Option β) {xs ys : List α}
    (h : distinct xs = distinct ys) : distinct (xs.filterMap f) = distinct (ys.filterMap f) := by
  rw [List.filterMap_eq_flatMap_toList, List.filterMap_eq_flatMap_toList]
  exact distinct_flatMap_congr _ h

theorem mem_congr_distinct {xs ys : List α} (h : distinct xs = distinct ys) (x : α) :
    x ∈ xs ↔ x ∈ ys := by
  rw [← mem_distinct, h, mem_distinct]

/-! ## What is put together from the elements -/

section Together

variable {ε : Type} {one : α → Except ε (List β)} (all : List α → Except ε (List β))
  (hnil : all [] = .ok [])
  (hcons : ∀ x rest, all (x :: rest) = (do let xs ← one x; let ys ← all rest; .ok (xs ++ ys)))
include hnil hcons

omit [DecidableEq α] [DecidableEq β] hnil in
/-- What an element contributes is part of the whole. -/
theorem exists_one_of_mem {xs : List α} {found : List β} (h : all xs = .ok found) {x : α}
    (hx : x ∈ xs) : ∃ own, one x = .ok own ∧ own ⊆ found := by
  induction xs generalizing found with
  | nil => exact absurd hx List.not_mem_nil
  | cons first rest ih =>
      rw [hcons, except_append_eq_ok] at h
      obtain ⟨own, others, hown, hothers, rfl⟩ := h
      rcases List.mem_cons.1 hx with rfl | hx
      · exact ⟨own, hown, List.subset_append_left _ _⟩
      · obtain ⟨part, hpart, hsub⟩ := ih hothers hx
        exact ⟨part, hpart, List.subset_append_of_subset_right _ hsub⟩

/-- What is put together from the elements of a list does not depend on repetitions, up to
repetitions; neither does the error, if there is one. -/
theorem map_distinct_congr {xs ys : List α} (h : distinct xs = distinct ys) :
    (all xs).map distinct = (all ys).map distinct := by
  have hfold : ∀ zs : List α, (all zs).map distinct = zs.foldl
      (fun result x => do
        let found ← result
        let own ← one x
        .ok (own.foldl insertNew found)) (.ok []) := by
    intro zs
    induction zs using List.reverseRecOn with
    | nil => rw [hnil]; rfl
    | append_singleton zs x ih =>
        rw [List.foldl_append, ← ih, List.foldl_cons, List.foldl_nil,
          except_append_of_cons all hnil hcons, hcons, hnil]
        cases all zs with
        | error error => rfl
        | ok found =>
            cases one x with
            | error error => rfl
            | ok own =>
                refine congrArg Except.ok ?_
                rw [List.append_nil, distinct_append]
  rw [hfold, hfold]
  refine foldl_congr_distinct (fun zs x hx => ?_) h
  rw [← hfold]
  cases hall : all zs with
  | error error => rfl
  | ok found =>
      obtain ⟨own, hown, hsub⟩ := exists_one_of_mem all hcons hall hx
      simp only [hown]
      exact congrArg Except.ok
        (foldl_insertNew_of_subset fun y hy => mem_distinct.2 (hsub hy))

end Together

end ResponseModel
